import CrawlBoard.Json.Fault
/-!
Texts of JSON, from behind their opening quote. A text that is kept must be well-formed;
in one that is passed over only the escapes are looked at.
-/

namespace CrawlBoard.Json

open Utf8 (Bytes)

def hexDigit? (byte : UInt8) : Option Nat :=
  if 0x30 ≤ byte ∧ byte ≤ 0x39 then some (byte.toNat - 0x30)
  else if 0x41 ≤ byte ∧ byte ≤ 0x46 then some (byte.toNat - 0x37)
  else if 0x61 ≤ byte ∧ byte ≤ 0x66 then some (byte.toNat - 0x57)
  else none

def hexUnit : Bytes → Except Failure Nat
  | a :: b :: c :: d :: rest =>
      match hexDigit? a, hexDigit? b, hexDigit? c, hexDigit? d with
      | some a, some b, some c, some d => .ok (((a * 16 + b) * 16 + c) * 16 + d)
      | _, _, _, _ => fail .invalidEscape rest
  | _ => fail .endOfString []

def isHighSurrogate (unit : Nat) : Bool := 0xD800 ≤ unit && unit ≤ 0xDBFF

def isLowSurrogate (unit : Nat) : Bool := 0xDC00 ≤ unit && unit ≤ 0xDFFF

def scalarBytes (code : Nat) : Bytes := Utf8.encode (String.singleton (Char.ofNat code))

def unicodeEscape (rest : Bytes) : Except Failure (Bytes × Nat) := do
  let unit ← hexUnit rest
  if isLowSurrogate unit then fail .loneSurrogate (rest.drop 4)
  else if !isHighSurrogate unit then .ok (scalarBytes unit, 4)
  else match rest.drop 4 with
    | [] => fail .endOfString []
    | 0x5C :: [] => fail .endOfString []
    | 0x5C :: 0x75 :: low => do
        let second ← hexUnit low
        if isLowSurrogate second then
          .ok (scalarBytes ((unit - 0xD800) * 0x400 + (second - 0xDC00) + 0x10000), 10)
        else fail .loneSurrogate (low.drop 4)
    | 0x5C :: _ :: tail => fail .cutSurrogate tail
    | _ :: tail => fail .cutSurrogate tail

def escape : Bytes → Except Failure (Bytes × Nat)
  | [] => fail .endOfString []
  | 0x22 :: _ => .ok ([0x22], 1)
  | 0x5C :: _ => .ok ([0x5C], 1)
  | 0x2F :: _ => .ok ([0x2F], 1)
  | 0x62 :: _ => .ok ([0x08], 1)
  | 0x66 :: _ => .ok ([0x0C], 1)
  | 0x6E :: _ => .ok ([0x0A], 1)
  | 0x72 :: _ => .ok ([0x0D], 1)
  | 0x74 :: _ => .ok ([0x09], 1)
  | 0x75 :: rest => (unicodeEscape rest).map fun (bytes, count) => (bytes, count + 1)
  | _ :: rest => fail .invalidEscape rest

def content : Bytes → Except Failure (Bytes × Bytes)
  | [] => fail .endOfString []
  | byte :: rest =>
      if byte = 0x22 then .ok ([], rest)
      else if byte = 0x5C then
        match escape rest with
        | .error failure => .error failure
        | .ok (bytes, count) =>
            (content (rest.drop count)).map fun (more, after) => (bytes ++ more, after)
      else if byte < 0x20 then fail .controlCharacter rest
      else (content rest).map fun (more, after) => (byte :: more, after)
  termination_by bytes => bytes.length
  decreasing_by all_goals simp only [List.length_drop, List.length_cons]; omega

def readText (rest : Bytes) : Except Failure (String × Bytes) := do
  let (bytes, after) ← content rest
  match Utf8.decode? bytes with
  | some text => .ok (text, after)
  | none => .error ⟨.invalidCodePoint, after.length + 1⟩

/-- Number of bytes of an escape after the backslash; surrogates need no partner here. -/
def skipEscape : Bytes → Except Failure Nat
  | [] => fail .endOfString []
  | 0x75 :: rest => (hexUnit rest).map fun _ => 5
  | byte :: rest =>
      if [0x22, 0x5C, 0x2F, 0x62, 0x66, 0x6E, 0x72, 0x74].contains byte then .ok 1
      else fail .invalidEscape rest

def skipText : Bytes → Except Failure Bytes
  | [] => fail .endOfString []
  | byte :: rest =>
      if byte = 0x22 then .ok rest
      else if byte = 0x5C then
        match skipEscape rest with
        | .error failure => .error failure
        | .ok count => skipText (rest.drop count)
      else if byte < 0x20 then fail .controlCharacter (byte :: rest)
      else skipText rest
  termination_by bytes => bytes.length
  decreasing_by all_goals simp only [List.length_drop, List.length_cons]; omega

end CrawlBoard.Json
