/-!
Bytes and text. Strict reading refuses ill-formed bytes; lossy reading replaces each longest
ill-formed run by one replacement character.
-/

namespace CrawlBoard.Utf8

abbrev Bytes := List UInt8

def encode (text : String) : Bytes := text.toUTF8.toList

def decode? (bytes : Bytes) : Option String := String.fromUTF8? ⟨bytes.toArray⟩

def lead (byte : UInt8) : Option (Nat × UInt8 × UInt8) :=
  if 0xC2 ≤ byte ∧ byte ≤ 0xDF then some (1, 0x80, 0xBF)
  else if byte = 0xE0 then some (2, 0xA0, 0xBF)
  else if byte = 0xED then some (2, 0x80, 0x9F)
  else if 0xE1 ≤ byte ∧ byte ≤ 0xEF then some (2, 0x80, 0xBF)
  else if byte = 0xF0 then some (3, 0x90, 0xBF)
  else if 0xF1 ≤ byte ∧ byte ≤ 0xF3 then some (3, 0x80, 0xBF)
  else if byte = 0xF4 then some (3, 0x80, 0x8F)
  else none

/-- Continuation bytes taken while they are admissible, at most `count`; the first one has its own range. -/
def tails : Nat → UInt8 → UInt8 → Bytes → Bytes
  | 0, _, _, _ => []
  | _, _, _, [] => []
  | count + 1, low, high, byte :: rest =>
      if low ≤ byte ∧ byte ≤ high then byte :: tails count 0x80 0xBF rest else []

def scalar (byte : UInt8) (tails : Bytes) : Char :=
  let payload := match tails.length with
    | 1 => byte.toNat % 32
    | 2 => byte.toNat % 16
    | _ => byte.toNat % 8
  Char.ofNat (tails.foldl (fun value tail => value * 64 + tail.toNat % 64) payload)

def decodeLossy : Bytes → List Char
  | [] => []
  | byte :: rest =>
      if byte < 0x80 then Char.ofNat byte.toNat :: decodeLossy rest
      else match lead byte with
        | none => '\uFFFD' :: decodeLossy rest
        | some (count, low, high) =>
            let taken := tails count low high rest
            let char := if taken.length = count then scalar byte taken else '\uFFFD'
            char :: decodeLossy (rest.drop taken.length)
  termination_by bytes => bytes.length
  decreasing_by all_goals simp only [List.length_drop, List.length_cons]; omega

def textLossy (bytes : Bytes) : String := String.ofList (decodeLossy bytes)

end CrawlBoard.Utf8
