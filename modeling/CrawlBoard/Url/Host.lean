import CrawlBoard.Text.Percent
import CrawlBoard.Url.Basic
import CrawlBoard.Url.Escape
/-!
Hosts as URLs write them: addresses of four or six parts, and names. A name that ends in a
number must be an IPv4 address. How a name of other alphabets is written in ASCII is left to the
tables of UTS 46, which stand outside.
-/

namespace CrawlBoard

/-- The ASCII form of names that are not plain; nothing for those that are refused. -/
class DomainNames where
  ascii? : String → Option String

/-- Without tables, all of them are refused. -/
abbrev DomainNames.plain : DomainNames := ⟨fun _ => none⟩

namespace Host

def isHexDigit (char : Char) : Bool := (Percent.digitValue? (UInt8.ofNat char.toNat)).isSome && char.toNat < 128

def digitValue (char : Char) : Nat :=
  if char.isDigit then char.toNat - 48 else char.toLower.toNat - 87

def valueIn (base : Nat) (digits : List Char) : Nat :=
  digits.foldl (fun total digit => total * base + digitValue digit) 0

/-- A number of an IPv4 address: hexadecimal behind `0x`, octal behind `0`. -/
def number? : List Char → Option Nat
  | [] => none
  | '0' :: 'x' :: digits | '0' :: 'X' :: digits =>
      if digits.all isHexDigit then some (valueIn 16 digits) else none
  | '0' :: digit :: digits =>
      if (digit :: digits).all fun char => '0' ≤ char && char ≤ '7'
      then some (valueIn 8 (digit :: digits)) else none
  | digits => if digits.all Char.isDigit then some (valueIn 10 digits) else none

def labels (name : List Char) : List (List Char) :=
  let parts := Search.splitOn '.' name
  if parts.length > 1 && parts.getLast? == some [] then parts.dropLast else parts

def endsInNumber (name : List Char) : Bool :=
  match (labels name).getLast? with
  | some last => (last ≠ [] && last.all Char.isDigit) || (number? last).isSome
  | none => false

/-- The last number fills the parts that are not written. -/
def ipv4? (name : List Char) : Option UInt32 := do
  let numbers ← (labels name).mapM number?
  let last ← numbers.getLast?
  let leading := numbers.dropLast
  if numbers.length > 4 ∨ leading.any (255 < ·) ∨ last ≥ Nat.pow 256 (5 - numbers.length) then none
  else
    let weighted := leading.zip [0x1000000, 0x10000, 0x100]
    some (UInt32.ofNat (weighted.foldl (fun total (number, weight) => total + number * weight) last))

def piece? (digits : List Char) : Option UInt16 :=
  if digits ≠ [] ∧ digits.length ≤ 4 ∧ digits.all isHexDigit then
    some (UInt16.ofNat (valueIn 16 digits))
  else none

def octet? (digits : List Char) : Option Nat :=
  if digits ≠ [] ∧ digits.all Char.isDigit ∧ valueIn 10 digits ≤ 255
      ∧ (digits = ['0'] ∨ digits.head? ≠ some '0') then
    some (valueIn 10 digits)
  else none

/-- The last two pieces may be written as an IPv4 address. -/
def tail? (digits : List Char) : Option (List UInt16) :=
  match Search.splitOn '.' digits with
  | [single] => (piece? single).map ([·])
  | [a, b, c, d] => do
      let (a, b, c, d) := (← octet? a, ← octet? b, ← octet? c, ← octet? d)
      some [UInt16.ofNat (a * 256 + b), UInt16.ofNat (c * 256 + d)]
  | _ => none

def pieces? (final : Bool) (text : List Char) : Option (List UInt16) :=
  if text = [] then some []
  else do
    let parts := Search.splitOn ':' text
    let last ← parts.getLast?
    let front ← parts.dropLast.mapM piece?
    let back ← if final then tail? last else (piece? last).map ([·])
    some (front ++ back)

/-- Two colons stand for as many zeros as are missing, at least one. -/
def ipv6? (text : List Char) : Option (List UInt16) :=
  match Search.cut? [':', ':'] text with
  | none => (pieces? true text).filter fun pieces => pieces.length = 8
  | some (before, after) => do
      let before ← pieces? false before
      let after ← pieces? true after
      let missing := 8 - (before.length + after.length)
      if missing = 0 then none
      else some (before ++ List.replicate missing 0 ++ after)

def forbidden (char : Char) : Bool :=
  char.toNat ≤ 0x20 || char.toNat = 0x7F || "%#/:<>?@[\\]^|".toList.contains char

/-- ASCII characters in lower case, and no label that stands for another one. -/
def isPlainName (name : List Char) : Bool :=
  (name.all fun char => char.toNat < 128) &&
    (Search.splitOn '.' name).all fun label => !"xn--".toList.isPrefixOf label

variable [DomainNames]

def asciiName? (name : String) : Option (List Char) :=
  let lower := name.toList.map Char.toLower
  if isPlainName lower then if lower.any forbidden then none else some lower
  else (DomainNames.ascii? name).map String.toList

def ofName (bytes : Utf8.Bytes) : Except UrlError Host :=
  match (Utf8.decode? (Percent.decode bytes)).bind asciiName? with
  | none => .error .internationalName
  | some name =>
      if name = [] then .error .emptyHost
      else if endsInNumber name then
        match ipv4? name with
        | some address => .ok (ipv4 address)
        | none => .error .invalidIpv4
      else .ok (domain (String.ofList name))

def ofBrackets (text : List Char) : Except UrlError Host :=
  if text.getLast? = some ']' then
    match ipv6? text.dropLast with
    | some pieces => .ok (ipv6 pieces)
    | none => .error .invalidIpv6
  else .error .invalidIpv6

def special (text : List Char) : Except UrlError Host :=
  match text with
  | [] => .error .emptyHost
  | '[' :: rest => ofBrackets rest
  | text => ofName (Utf8.encode (String.ofList text))

def general (text : List Char) : Except UrlError Host :=
  match text with
  | '[' :: rest => ofBrackets rest
  | text =>
      if text.any fun char => char = '\x00' || " #/:<>?@[\\]^|".toList.contains char then
        .error .invalidHostCharacter
      else .ok (domain (UrlEscape.apply UrlEscape.control text))

end Host

end CrawlBoard
