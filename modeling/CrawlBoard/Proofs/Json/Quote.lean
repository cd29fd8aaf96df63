import CrawlBoard.Json.Tree
import CrawlBoard.Proofs.Encoding
import CrawlBoard.Proofs.Json.Grammar

namespace CrawlBoard.Json

open Utf8 (Bytes)

def isPlain (byte : UInt8) : Bool := byte ≠ 0x22 && byte ≠ 0x5C && 0x20 ≤ byte

theorem isPlain_iff (byte : UInt8) :
    isPlain byte ↔ byte.toNat ≠ 0x22 ∧ byte.toNat ≠ 0x5C ∧ 0x20 ≤ byte.toNat := by
  simp [isPlain, ← UInt8.toNat_inj, UInt8.le_iff_toNat_le, and_assoc]

def prepend (bytes : Bytes) (read : Bytes × Bytes) : Bytes × Bytes := (bytes ++ read.1, read.2)

theorem content_plain (plain : Bytes) (allPlain : ∀ byte ∈ plain, isPlain byte) (rest : Bytes) :
    content (plain ++ rest) = (content rest).map (prepend plain) := by
  induction plain with
  | nil =>
      rw [List.nil_append]
      cases content rest <;> rfl
  | cons byte plain ih =>
      have head : isPlain byte := allPlain byte List.mem_cons_self
      simp only [isPlain, Bool.and_eq_true, decide_eq_true_eq] at head
      have notControl : ¬ byte < 0x20 := UInt8.not_lt.mpr head.2
      have tail := ih fun other member => allPlain other (List.mem_cons_of_mem _ member)
      rw [List.cons_append, content, if_neg head.1.1, if_neg head.1.2, if_neg notControl, tail]
      cases content rest <;> rfl

theorem skipText_plain (plain : Bytes) (allPlain : ∀ byte ∈ plain, isPlain byte) (rest : Bytes) :
    skipText (plain ++ rest) = skipText rest := by
  induction plain with
  | nil => rfl
  | cons byte plain ih =>
      have head : isPlain byte := allPlain byte List.mem_cons_self
      simp only [isPlain, Bool.and_eq_true, decide_eq_true_eq] at head
      have notControl : ¬ byte < 0x20 := UInt8.not_lt.mpr head.2
      rw [List.cons_append, skipText, if_neg head.1.1, if_neg head.1.2, if_neg notControl,
        ih fun other member => allPlain other (List.mem_cons_of_mem _ member)]

theorem content_escape (written given rest : Bytes)
    (read : escape (written ++ rest) = .ok (given, written.length)) :
    content (0x5C :: (written ++ rest)) = (content rest).map (prepend given) := by
  rw [content]
  simp only [read, List.drop_left]
  rfl

theorem HexUnit.length {unit : Nat} {digits : Bytes} (hex : HexUnit unit digits) :
    digits.length = 4 := by
  cases hex
  rfl

theorem HexUnit.hexUnit {unit : Nat} {digits : Bytes} (hex : HexUnit unit digits) (rest : Bytes) :
    Json.hexUnit (digits ++ rest) = .ok unit := by
  cases hex with
  | digits first second third fourth =>
      simp only [List.cons_append, List.nil_append, Json.hexUnit, first, second, third, fourth]

theorem scalarBytes_toNat (char : Char) : scalarBytes char.toNat = String.utf8EncodeChar char := by
  rw [scalarBytes, Utf8.encode_eq_flatMap, Char.ofNat_toNat]
  simp

theorem not_surrogate (char : Char) :
    isHighSurrogate char.toNat = false ∧ isLowSurrogate char.toNat = false := by
  have scalar : char.toNat < 0xD800 ∨ 0xDFFF < char.toNat ∧ char.toNat < 0x110000 := char.valid
  simp only [isHighSurrogate, isLowSurrogate, Bool.and_eq_false_iff, decide_eq_false_iff_not]
  omega

theorem escape_letter {letter : UInt8} {char : Char} (known : (letter, char) ∈ letters)
    (rest : Bytes) : escape (letter :: rest) = .ok (String.utf8EncodeChar char, 1) ∧
      skipEscape (letter :: rest) = .ok 1 := by
  simp only [letters, List.mem_cons, Prod.mk.injEq, List.not_mem_nil, or_false] at known
  rcases known with known | known | known | known | known | known | known | known <;>
    obtain ⟨rfl, rfl⟩ := known <;> exact ⟨rfl, rfl⟩

theorem HexUnit.escape {char : Char} {digits : Bytes} (hex : HexUnit char.toNat digits)
    (rest : Bytes) :
    Json.escape (0x75 :: (digits ++ rest)) = .ok (String.utf8EncodeChar char, 5) := by
  obtain ⟨notHigh, notLow⟩ := not_surrogate char
  simp only [Json.escape, unicodeEscape, hex.hexUnit, bind, Except.bind, notHigh, notLow,
    scalarBytes_toNat]
  rfl

theorem HexUnit.escape_pair {char : Char} {first second : Nat} {high low : Bytes}
    (highUnit : HexUnit first high) (lowUnit : HexUnit second low)
    (isHigh : isHighSurrogate first = true) (isLow : isLowSurrogate second = true)
    (code : char.toNat = (first - 0xD800) * 0x400 + (second - 0xDC00) + 0x10000) (rest : Bytes) :
    Json.escape (0x75 :: (high ++ 0x5C :: 0x75 :: (low ++ rest))) =
      .ok (String.utf8EncodeChar char, 11) := by
  have notLow : isLowSurrogate first = false := by
    simp only [isHighSurrogate, Bool.and_eq_true, decide_eq_true_eq] at isHigh
    simp only [isLowSurrogate, Bool.and_eq_false_iff, decide_eq_false_iff_not]
    omega
  have behind : (high ++ 0x5C :: 0x75 :: (low ++ rest)).drop 4 = 0x5C :: 0x75 :: (low ++ rest) := by
    rw [← highUnit.length, List.drop_left]
  simp only [Json.escape, unicodeEscape, highUnit.hexUnit, lowUnit.hexUnit, behind, bind,
    Except.bind, notLow, isHigh, isLow, ← code, scalarBytes_toNat]
  rfl

theorem HexUnit.skipEscape {unit : Nat} {digits : Bytes} (hex : HexUnit unit digits) (rest : Bytes) :
    Json.skipEscape (0x75 :: (digits ++ rest)) = .ok 5 := by
  simp only [Json.skipEscape, hex.hexUnit]
  rfl

theorem HexUnit.skipText {unit : Nat} {digits : Bytes} (hex : HexUnit unit digits) (rest : Bytes) :
    Json.skipText (0x5C :: 0x75 :: (digits ++ rest)) = Json.skipText rest := by
  have behind : (0x75 :: (digits ++ rest)).drop 5 = rest := by
    rw [List.drop_succ_cons, ← hex.length, List.drop_left]
  rw [Json.skipText]
  simp only [hex.skipEscape, behind]
  rfl

namespace Written

variable {char : Char} {bytes : Bytes}

theorem isPlain_of_mem (notQuote : char ≠ '"') (notBackslash : char ≠ '\\')
    (notControl : 0x20 ≤ char.toNat) {byte : UInt8} (member : byte ∈ String.utf8EncodeChar char) :
    isPlain byte := by
  rw [isPlain_iff]
  by_cases ascii : char.toNat < 128
  · have differs {other : Char} (different : char ≠ other) : char.toNat ≠ other.toNat :=
      fun same => different (Char.toNat_inj.mp same)
    rw [Utf8.encodeChar_of_ascii ascii, List.mem_singleton] at member
    have value : byte.toNat = char.toNat := by
      rw [member]
      exact UInt8.toNat_ofNat_of_lt' (Nat.lt_trans ascii (by decide))
    rw [value]
    exact ⟨differs notQuote, differs notBackslash, notControl⟩
  · have high := Utf8.high_of_mem_encodeChar (Nat.not_lt.mp ascii) member
    omega

theorem content (written : Written char bytes) (rest : Bytes) :
    Json.content (bytes ++ rest) =
      (Json.content rest).map (prepend (String.utf8EncodeChar char)) := by
  cases written with
  | plain notQuote notBackslash notControl =>
      exact content_plain _ (fun _ => isPlain_of_mem notQuote notBackslash notControl) rest
  | letter known => exact content_escape [_] _ rest (escape_letter known rest).1
  | @unit digits hex =>
      refine content_escape (0x75 :: digits) _ rest ?_
      rw [List.length_cons, hex.length]
      exact hex.escape rest
  | @pair first second high low highUnit lowUnit isHigh isLow code =>
      refine content_escape (0x75 :: (high ++ 0x5C :: 0x75 :: low)) _ rest ?_
      have read := highUnit.escape_pair lowUnit isHigh isLow code rest
      simpa [highUnit.length, lowUnit.length] using read

end Written

namespace WrittenAll

variable {chars : List Char} {bytes : Bytes}

theorem content (written : WrittenAll chars bytes) (rest : Bytes) :
    Json.content (bytes ++ 0x22 :: rest) = .ok (chars.flatMap String.utf8EncodeChar, rest) := by
  induction written with
  | nil => rw [List.flatMap_nil, List.nil_append, Json.content, if_pos rfl]
  | cons first more ih =>
      rw [List.flatMap_cons, List.append_assoc, first.content, ih]
      rfl

theorem readText {text : String} (written : WrittenAll text.toList bytes) (rest : Bytes) :
    Json.readText (bytes ++ 0x22 :: rest) = .ok (text, rest) := by
  simp only [Json.readText, written.content, bind, Except.bind, ← Utf8.encode_eq_flatMap,
    Utf8.decode?_encode]

end WrittenAll

theorem hexDigit?_hexLower (value : Nat) (digit : value < 16) :
    hexDigit? (UInt8.ofNat (hexLower value).toNat) = some value ∧ (hexLower value).toNat < 128 := by
  revert value
  decide

theorem written_escapeChar (char : Char) :
    Written char ((escapeChar char).flatMap String.utf8EncodeChar) := by
  unfold escapeChar
  split
  -- The seven characters that have an escape of their own.
  iterate 7 exact .letter (by decide)
  rename_i notQuote notBackslash _ _ _ _ _
  split
  · rename_i control
    obtain ⟨high, highAscii⟩ := hexDigit?_hexLower (char.toNat / 16) (by omega)
    obtain ⟨low, lowAscii⟩ := hexDigit?_hexLower (char.toNat % 16) (by omega)
    have zero : hexDigit? 0x30 = some 0 := rfl
    have hex := HexUnit.digits zero zero high low
    have value : ((0 * 16 + 0) * 16 + char.toNat / 16) * 16 + char.toNat % 16 = char.toNat := by
      omega
    rw [value] at hex
    simp only [List.flatMap_cons, List.flatMap_nil, List.append_nil,
      Utf8.encodeChar_of_ascii highAscii, Utf8.encodeChar_of_ascii lowAscii]
    exact .unit hex
  · rename_i notControl
    rw [List.flatMap_singleton]
    exact .plain notQuote notBackslash (Nat.not_lt.mp notControl)

def escaped (text : String) : Bytes := (text.toList.flatMap escapeChar).flatMap String.utf8EncodeChar

theorem writtenAll_escaped (text : String) : WrittenAll text.toList (escaped text) := by
  unfold escaped
  induction text.toList with
  | nil => exact .nil
  | cons char chars ih =>
      rw [List.flatMap_cons, List.flatMap_append]
      exact .cons (written_escapeChar char) ih

theorem writtenAll_name (member : String × Tree) :
    WrittenAll member.1.toList (escaped member.1) :=
  writtenAll_escaped member.1

theorem encode_quote (text : String) :
    Utf8.encode (quote text) = 0x22 :: (escaped text ++ [0x22]) := by
  rw [quote, Utf8.encode_ofList, List.flatMap_cons, List.flatMap_append]
  rfl

theorem quoted_quote (text : String) : Quoted text (Utf8.encode (quote text)) :=
  encode_quote text ▸ .quotes (writtenAll_escaped text)

end CrawlBoard.Json
