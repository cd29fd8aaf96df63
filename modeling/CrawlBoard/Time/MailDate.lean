import CrawlBoard.Text.Blank
import CrawlBoard.Text.Digits
import CrawlBoard.Time.Rfc3339

namespace CrawlBoard.MailDate

def lower (text : List Char) : List Char := text.map Char.toLower

def weekdays : List String := ["mon", "tue", "wed", "thu", "fri", "sat", "sun"]

def months : List String :=
  ["jan", "feb", "mar", "apr", "may", "jun", "jul", "aug", "sep", "oct", "nov", "dec"]

def name? (names : List String) (text : List Char) : Option (Nat × List Char) :=
  let word := String.ofList (lower (text.take 3))
  if word ∈ names then some (names.idxOf word, text.drop 3) else none

def weekday (date : Date) : Nat := ((date.toDays + 3) % 7).toNat

/-- A comment in parentheses may be nested and may escape characters. -/
def skipComment : Nat → List Char → Option (List Char)
  | _, [] => none
  | depth, '\\' :: _ :: rest => skipComment depth rest
  | depth, '(' :: rest => skipComment (depth + 1) rest
  | 0, ')' :: rest => some rest
  | depth + 1, ')' :: rest => skipComment depth rest
  | depth, _ :: rest => skipComment depth rest

def skipBlanks (text : List Char) : List Char := text.dropWhile Blank.isBlank

def blanks? (text : List Char) : Option (List Char) :=
  let rest := skipBlanks text
  if rest.length < text.length then some rest else none

def short? (text : List Char) : Option (Nat × List Char) :=
  let digits := (text.take 2).takeWhile Digits.isDigit
  if digits = [] then none else some (Digits.value digits, text.drop digits.length)

/-- Two-digit years stand for 1950 to 2049, three-digit ones count from 1900. -/
def fullYear (digits year : Nat) : Nat :=
  match digits with
  | 2 => if year ≤ 49 then year + 2000 else year + 1900
  | 3 => year + 1900
  | _ => year

def year? (text : List Char) : Option (Nat × List Char) :=
  let digits := text.takeWhile Digits.isDigit
  if digits.length < 2 then none
  else some (fullYear digits.length (Digits.value digits), text.drop digits.length)

def zoneHours (name : String) : Option Int :=
  match name with
  | "gmt" | "ut" | "z" => some 0
  | "edt" => some (-4)
  | "est" | "cdt" => some (-5)
  | "cst" | "mdt" => some (-6)
  | "mst" | "pdt" => some (-7)
  | "pst" => some (-8)
  | _ =>
      if name.length = 1 && name ≠ "j" then some 0 else none

def zone? (text : List Char) : Option (Int × List Char) :=
  let letters := text.takeWhile Char.isAlpha
  if letters ≠ [] then
    (zoneHours (String.ofList (lower letters))).map fun hours =>
      (hours * 3600, text.drop letters.length)
  else match text with
    | sign :: rest =>
        if sign = '+' ∨ sign = '-' then do
          let (hours, rest) ← Digits.take? 2 rest
          let (minutes, rest) ← Digits.take? 2 rest
          if minutes > 59 ∨ hours > 23 then none
          else
            let seconds : Int := hours * 3600 + minutes * 60
            some (if sign = '+' then seconds else -seconds, rest)
        else none
    | [] => none

def seconds? (text : List Char) : Option (Nat × List Char) :=
  match skipBlanks text with
  | ':' :: rest => Digits.take? 2 (skipBlanks rest)
  | _ => some (0, text)

def trailing? (fuel : Nat) (text : List Char) : Option Unit :=
  match fuel, skipBlanks text with
  | _, [] => some ()
  | fuel + 1, '(' :: rest => (skipComment 0 rest).bind (trailing? fuel)
  | _, _ => none

def parse? (text : String) : Option Instant := do
  let start := skipBlanks text.toList
  let (named, rest) ← match name? weekdays start with
    | some (day, rest) => (Rfc3339.char? (· == ',') rest).map fun rest => (some day, rest)
    | none => some (none, start)
  let (day, rest) ← short? (skipBlanks rest)
  let rest ← blanks? rest
  let (month, rest) ← name? months rest
  let rest ← blanks? rest
  let (year, rest) ← year? rest
  let rest ← blanks? rest
  let (hour, rest) ← Digits.take? 2 rest
  let rest ← Rfc3339.char? (· == ':') (skipBlanks rest)
  let (minute, rest) ← Digits.take? 2 (skipBlanks rest)
  let (second, rest) ← seconds? rest
  let rest ← blanks? rest
  let (offset, rest) ← zone? rest
  trailing? rest.length rest
  let date : Date := ⟨year, month + 1, day⟩
  if date.Valid ∧ named.all (· == weekday date) then
    Rfc3339.instant? date hour minute second 0 offset
  else none

end CrawlBoard.MailDate
