import CrawlBoard.Json.Reader
import CrawlBoard.Json.Text
import CrawlBoard.Proofs.Search

namespace CrawlBoard.Json

open Utf8 (Bytes)

def Blanks (bytes : Bytes) : Prop := ∀ byte ∈ bytes, isBlank byte = true

instance (bytes : Bytes) : Decidable (Blanks bytes) :=
  inferInstanceAs (Decidable (∀ byte ∈ bytes, isBlank byte = true))

theorem Blanks.nil : Blanks [] := fun _ member => nomatch member

theorem Blanks.space : Blanks [0x20] := by decide

def letters : List (UInt8 × Char) :=
  [(0x22, '"'), (0x5C, '\\'), (0x2F, '/'), (0x62, '\x08'), (0x66, '\x0C'), (0x6E, '\n'),
    (0x72, '\r'), (0x74, '\t')]

inductive HexUnit : Nat → Bytes → Prop
  | digits {first second third fourth : UInt8} {a b c d : Nat}
      (firstDigit : hexDigit? first = some a) (secondDigit : hexDigit? second = some b)
      (thirdDigit : hexDigit? third = some c) (fourthDigit : hexDigit? fourth = some d) :
      HexUnit (((a * 16 + b) * 16 + c) * 16 + d) [first, second, third, fourth]

/-- How a character is written inside a text: as it is, behind a backslash, or by number. Beyond
four digits it takes two numbers. -/
inductive Written (char : Char) : Bytes → Prop
  | plain (notQuote : char ≠ '"') (notBackslash : char ≠ '\\') (notControl : 0x20 ≤ char.toNat) :
      Written char (String.utf8EncodeChar char)
  | letter {letter : UInt8} (known : (letter, char) ∈ letters) : Written char [0x5C, letter]
  | unit {digits : Bytes} (unit : HexUnit char.toNat digits) : Written char (0x5C :: 0x75 :: digits)
  | pair {first second : Nat} {high low : Bytes} (highUnit : HexUnit first high)
      (lowUnit : HexUnit second low) (isHigh : isHighSurrogate first = true)
      (isLow : isLowSurrogate second = true)
      (code : char.toNat = (first - 0xD800) * 0x400 + (second - 0xDC00) + 0x10000) :
      Written char (0x5C :: 0x75 :: (high ++ 0x5C :: 0x75 :: low))

inductive WrittenAll : List Char → Bytes → Prop
  | nil : WrittenAll [] []
  | cons {char : Char} {chars : List Char} {bytes others : Bytes} (written : Written char bytes)
      (more : WrittenAll chars others) : WrittenAll (char :: chars) (bytes ++ others)

inductive Quoted (text : String) : Bytes → Prop
  | quotes {bytes : Bytes} (written : WrittenAll text.toList bytes) :
      Quoted text (0x22 :: (bytes ++ [0x22]))

def Decimals (bytes : Bytes) : Prop := bytes ≠ [] ∧ ∀ byte ∈ bytes, isDigit byte = true

structure Whole (bytes : Bytes) : Prop where
  decimals : Decimals bytes
  alone : bytes.head? = some 0x30 → bytes = [0x30]

inductive Fraction : Bytes → Prop
  | none : Fraction []
  | point {digits : Bytes} (decimals : Decimals digits) : Fraction (0x2E :: digits)

inductive Exponent : Bytes → Prop
  | none : Exponent []
  | power {mark : UInt8} {sign digits : Bytes} (isMark : mark = 0x65 ∨ mark = 0x45)
      (isSign : sign = [] ∨ sign = [0x2B] ∨ sign = [0x2D]) (decimals : Decimals digits) :
      Exponent (mark :: (sign ++ digits))

inductive Unsigned : Bytes → Prop
  | parts {whole fraction exponent : Bytes} (isWhole : Whole whole) (isFraction : Fraction fraction)
      (isExponent : Exponent exponent) : Unsigned (whole ++ (fraction ++ exponent))

inductive Numeral : Bytes → Prop
  | plus {bytes : Bytes} (unsigned : Unsigned bytes) : Numeral bytes
  | minus {bytes : Bytes} (unsigned : Unsigned bytes) : Numeral (0x2D :: bytes)

/-- What stands in front of a part: blanks, and a comma unless the part is the first one. -/
inductive Gap : Bool → Bytes → Prop
  | first {lead : Bytes} (leads : Blanks lead) : Gap true lead
  | comma {trail lead : Bytes} (trails : Blanks trail) (leads : Blanks lead) :
      Gap false (trail ++ 0x2C :: lead)

inductive Separated : Bool → List Bytes → Bytes → Prop
  | done {first : Bool} {trail : Bytes} (trails : Blanks trail) : Separated first [] trail
  | part {first : Bool} {gap part more : Bytes} {parts : List Bytes} (before : Gap first gap)
      (others : Separated false parts more) :
      Separated first (part :: parts) (gap ++ (part ++ more))

structure Member where
  name : String
  quoted : Bytes
  written : WrittenAll name.toList quoted
  trail : Bytes
  trails : Blanks trail
  lead : Bytes
  leads : Blanks lead
  value : Bytes

def Member.bytes (member : Member) : Bytes :=
  member.quoted ++ 0x22 :: (member.trail ++ 0x3A :: (member.lead ++ member.value))

structure Entry where
  quoted : Bytes
  trail : Bytes
  trails : Blanks trail
  lead : Bytes
  leads : Blanks lead
  value : Bytes

def Entry.bytes (entry : Entry) : Bytes :=
  entry.quoted ++ 0x22 :: (entry.trail ++ 0x3A :: (entry.lead ++ entry.value))

def Member.entry (member : Member) : Entry :=
  ⟨member.quoted, member.trail, member.trails, member.lead, member.leads, member.value⟩

def entryParts (entries : List Entry) : List Bytes := entries.map fun entry => 0x22 :: entry.bytes

theorem entryParts_map (members : List Member) :
    entryParts (members.map Member.entry) = members.map fun member => 0x22 :: member.bytes :=
  List.map_map ..

inductive ListOf (parts : List Bytes) : Bytes → Prop
  | brackets {inside : Bytes} (separated : Separated true parts inside) :
      ListOf parts (0x5B :: (inside ++ [0x5D]))

inductive ObjectOf (members : List Member) : Bytes → Prop
  | brackets {inside : Bytes}
      (separated : Separated true (members.map fun member => 0x22 :: member.bytes) inside) :
      ObjectOf members (0x7B :: (inside ++ [0x7D]))

inductive Value : Bytes → Prop
  | null : Value [0x6E, 0x75, 0x6C, 0x6C]
  | yes : Value [0x74, 0x72, 0x75, 0x65]
  | no : Value [0x66, 0x61, 0x6C, 0x73, 0x65]
  | number {bytes : Bytes} (numeral : Numeral bytes) : Value bytes
  | text {text : String} {bytes : Bytes} (quoted : Quoted text bytes) : Value bytes
  | list {parts : List Bytes} {bytes : Bytes} (values : ∀ part ∈ parts, Value part)
      (listed : ListOf parts bytes) : Value bytes
  | object {members : List Member} {bytes : Bytes}
      (values : ∀ member ∈ members, Value member.value) (listed : ObjectOf members bytes) :
      Value bytes

end CrawlBoard.Json
