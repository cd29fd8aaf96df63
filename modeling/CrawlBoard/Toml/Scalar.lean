import CrawlBoard.Text.Digits
import CrawlBoard.Text.Search
import CrawlBoard.Time.Calendar
import CrawlBoard.Toml.Basic

namespace CrawlBoard.Toml

def isControl (char : Char) : Bool := (char.toNat < 0x20 && char ≠ '\t') || char = '\x7f'

def hexValue? (digits : List Char) : Option Nat :=
  digits.foldlM (fun total char =>
    if char.isDigit then some (total * 16 + (char.toNat - 48))
    else if 'a' ≤ char.toLower ∧ char.toLower ≤ 'f' then some (total * 16 + (char.toLower.toNat - 87))
    else none) 0

def scalar? (count : Nat) (text : List Char) : Option (Char × List Char) := do
  let code ← if (text.take count).length = count then hexValue? (text.take count) else none
  if code.isValidChar then some (Char.ofNat code, text.drop count) else none

def escape? : List Char → Option (Char × List Char)
  | 'b' :: rest => some ('\x08', rest)
  | 't' :: rest => some ('\t', rest)
  | 'n' :: rest => some ('\n', rest)
  | 'f' :: rest => some ('\x0c', rest)
  | 'r' :: rest => some ('\r', rest)
  | '"' :: rest => some ('"', rest)
  | '\\' :: rest => some ('\\', rest)
  | 'u' :: rest => scalar? 4 rest
  | 'U' :: rest => scalar? 8 rest
  | _ => none

def basic? : Nat → List Char → Option (List Char × List Char)
  | _ + 1, '"' :: rest => some ([], rest)
  | fuel + 1, '\\' :: rest => do
      let (char, rest) ← escape? rest
      let (text, rest) ← basic? fuel rest
      some (char :: text, rest)
  | fuel + 1, char :: rest =>
      if isControl char then none
      else (basic? fuel rest).map fun (text, rest) => (char :: text, rest)
  | _, _ => none

def literal? : List Char → Option (List Char × List Char)
  | [] => none
  | char :: rest =>
      if char = '\'' then some ([], rest)
      else if isControl char then none
      else (literal? rest).map fun (text, rest) => (char :: text, rest)

def isBlank (char : Char) : Bool := char = ' ' || char = '\t'

def newline? : List Char → Option (List Char)
  | '\n' :: rest => some rest
  | '\r' :: '\n' :: rest => some rest
  | _ => none

def skipFolded (text : List Char) : List Char :=
  text.dropWhile fun char => isBlank char || char = '\n' || char = '\r'

/-- Closing quotes: up to two more of them belong to the text. -/
def closing? (quote : Char) (text : List Char) : Option (List Char × List Char) :=
  let quotes := (text.takeWhile (· = quote)).length
  if quotes < 3 then none
  else
    let inner := min (quotes - 3) 2
    some (List.replicate inner quote, text.drop (inner + 3))

def multiline? (quote : Char) : Nat → List Char → Option (List Char × List Char)
  | 0, _ => none
  | _, [] => none
  | fuel + 1, char :: rest =>
      let goOn (taken rest : List Char) : Option (List Char × List Char) :=
        (multiline? quote fuel rest).map fun (text, rest) => (taken ++ text, rest)
      match closing? quote (char :: rest) with
      | some closed => some closed
      | none =>
          if char = '\\' ∧ quote = '"' then
            let blanks := rest.dropWhile isBlank
            if (newline? blanks).isSome then goOn [] (skipFolded blanks)
            else match escape? rest with
              | some (char, rest) => goOn [char] rest
              | none => none
          else match newline? (char :: rest) with
            | some rest => goOn ['\n'] rest
            | none => if isControl char then none else goOn [char] rest

def string? (text : List Char) : Option (List Char × List Char) :=
  let fuel := text.length + 1
  let firstLine (rest : List Char) : List Char := (newline? rest).getD rest
  match text with
  | '"' :: '"' :: '"' :: rest => multiline? '"' fuel (firstLine rest)
  | '\'' :: '\'' :: '\'' :: rest => multiline? '\'' fuel (firstLine rest)
  | '"' :: rest => basic? fuel rest
  | '\'' :: rest => literal? rest
  | _ => none

def grouped? (accepts : Char → Bool) (text : List Char) : Option (List Char) :=
  let groups := Search.splitOn '_' text
  if groups.all fun group => group ≠ [] && group.all accepts then some groups.flatten else none

def signed (text : List Char) : Bool × List Char :=
  match text with
  | '+' :: rest => (false, rest)
  | '-' :: rest => (true, rest)
  | rest => (false, rest)

def decimal? (text : List Char) : Option Nat := do
  let digits ← grouped? Char.isDigit text
  if digits.length > 1 ∧ digits.head? = some '0' then none else some (Digits.value digits)

def inRange (value : Int) : Bool := -0x8000000000000000 ≤ value && value < 0x8000000000000000

def based? (base : Nat) (text : List Char) : Option Int := do
  let digits ← grouped? (fun char => (hexValue? [char]).any (· < base)) text
  let value : Int := digits.foldl (fun total char => total * base + ((hexValue? [char]).getD 0 : Nat)) 0
  if inRange value then some value else none

def integer? (text : List Char) : Option Int :=
  match text with
  | '0' :: 'x' :: rest => based? 16 rest
  | '0' :: 'o' :: rest => based? 8 rest
  | '0' :: 'b' :: rest => based? 2 rest
  | text => do
      let (negative, digits) := signed text
      let magnitude ← decimal? digits
      let value : Int := if negative then -(magnitude : Int) else magnitude
      if inRange value then some value else none

def isReal (text : List Char) : Bool :=
  let (_, text) := signed text
  let exponent (text : List Char) : Bool := (grouped? Char.isDigit (signed text).2).isSome
  let (whole, rest) := text.span fun char => char.isDigit || char = '_'
  let fraction (rest : List Char) : Bool :=
    let (digits, rest) := rest.span fun char => char.isDigit || char = '_'
    (grouped? Char.isDigit digits).isSome && match rest with
      | [] => true
      | mark :: rest => (mark = 'e' || mark = 'E') && exponent rest
  text = "inf".toList || text = "nan".toList || ((decimal? whole).isSome && match rest with
    | '.' :: rest => fraction rest
    | mark :: rest => (mark = 'e' || mark = 'E') && exponent rest
    | [] => false)

def isDate (text : List Char) : Bool :=
  match Search.splitOn '-' text with
  | [year, month, day] =>
      [year, month, day].map List.length == [4, 2, 2] && [year, month, day].all (·.all Char.isDigit)
        && decide (Date.Valid ⟨Digits.value year, Digits.value month, Digits.value day⟩)
  | _ => false

def isClock (text : List Char) : Bool :=
  match Search.splitOn ':' text with
  | [hour, minute, second] =>
      let (second, fraction) := second.span Char.isDigit
      [hour, minute, second].map List.length == [2, 2, 2]
        && [hour, minute].all (·.all Char.isDigit)
        && decide (Digits.value hour < 24 ∧ Digits.value minute < 60 ∧ Digits.value second ≤ 60)
        && match fraction with
          | [] => true
          | mark :: digits => mark = '.' && digits ≠ [] && digits.all Char.isDigit
  | _ => false

def isOffset (text : List Char) : Bool :=
  match text with
  | [] => true
  | [zulu] => zulu = 'Z' || zulu = 'z'
  | sign :: rest =>
      (sign = '+' || sign = '-') && match Search.splitOn ':' rest with
        | [hours, minutes] => hours.length = 2 && minutes.length = 2
            && (hours ++ minutes).all Char.isDigit
            && decide (Digits.value hours < 24 ∧ Digits.value minutes < 60)
        | _ => false

def isTime (text : List Char) : Bool :=
  isDate text || isClock text || (isDate (text.take 10) && match text.drop 10 with
    | separator :: rest =>
        let (clock, offset) := rest.span fun char => char.isDigit || char = ':' || char = '.'
        [' ', 'T', 't'].contains separator && isClock clock && isOffset offset
    | [] => false)

def inWord (char : Char) : Bool := char.isAlphanum || "+-_.:".toList.contains char

/-- The characters of a number, a time or a word; a blank may stand between date and clock. -/
def word (text : List Char) : List Char × List Char :=
  let (first, rest) := text.span inWord
  match rest with
  | ' ' :: digit :: _ =>
      if digit.isDigit && isDate first then
        let (second, rest) := (rest.drop 1).span inWord
        (first ++ ' ' :: second, rest)
      else (first, rest)
  | rest => (first, rest)

def wordValue? (text : List Char) : Option TomlValue :=
  if text = "true".toList then some (.bool true)
  else if text = "false".toList then some (.bool false)
  else if isTime text then some .time
  else match integer? text with
    | some value => some (.integer value)
    | none => if isReal text then some .real else none

end CrawlBoard.Toml
