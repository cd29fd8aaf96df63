import CrawlBoard.Text.Digits
import CrawlBoard.Time.Instant

namespace CrawlBoard.Rfc3339

def yearText (year : Int) : String :=
  if 0 ≤ year ∧ year ≤ 9999 then Digits.pad 4 year.toNat
  else (if year < 0 then "-" else "+") ++ Digits.pad 4 year.natAbs

def dateText (date : Date) : String :=
  yearText date.year ++ "-" ++ Digits.pad 2 date.month ++ "-" ++ Digits.pad 2 date.day

def clockText (instant : Instant) : String :=
  Digits.pad 2 instant.hour ++ ":" ++ Digits.pad 2 instant.minute ++ ":"
    ++ Digits.pad 2 instant.second

/-- None, three, six or nine digits: the fewest that lose nothing. -/
def fractionText (nanos : Nat) : String :=
  if nanos = 0 then ""
  else if nanos % 1000000 = 0 then "." ++ Digits.pad 3 (nanos / 1000000)
  else if nanos % 1000 = 0 then "." ++ Digits.pad 6 (nanos / 1000)
  else "." ++ Digits.pad 9 nanos

def render (instant : Instant) : String :=
  dateText instant.date ++ "T" ++ clockText instant ++ fractionText instant.fraction ++ "Z"

def renderMillis (instant : Instant) : String :=
  dateText instant.date ++ "T" ++ clockText instant
    ++ "." ++ Digits.pad 3 (instant.fraction / 1000000) ++ "Z"

def char? (accepted : Char → Bool) : List Char → Option (List Char)
  | [] => none
  | char :: rest => if accepted char then some rest else none

/-- Fraction digits beyond the ninth are read and ignored. -/
def fraction? (text : List Char) : Option (Nat × List Char) :=
  match text with
  | '.' :: rest =>
      let digits := rest.takeWhile Digits.isDigit
      let kept := digits.take 9
      if digits = [] then none
      else some (Digits.value kept * Nat.pow 10 (9 - kept.length), rest.dropWhile Digits.isDigit)
  | _ => some (0, text)

/-- Seconds east of UTC; `Z` is none. The minus sign may be U+2212. -/
def offset? : List Char → Option (Int × List Char)
  | [] => none
  | sign :: rest =>
      if sign = 'Z' ∨ sign = 'z' then some (0, rest)
      else if sign = '+' ∨ sign = '-' ∨ sign = '\u2212' then do
        let (hours, rest) ← Digits.take? 2 rest
        let rest ← char? (· == ':') rest
        let (minutes, rest) ← Digits.take? 2 rest
        if minutes > 59 ∨ hours > 23 then none
        else
          let seconds : Int := hours * 3600 + minutes * 60
          some (if sign = '+' then seconds else -seconds, rest)
      else none

/-- The instant of a date, a clock time and an offset; second 60 is a leap second. -/
def instant? (date : Date) (hour minute second nanos : Nat) (offset : Int) : Option Instant :=
  if date.Valid ∧ hour ≤ 23 ∧ minute ≤ 59 ∧ second ≤ 60 then
    let extra : Nat := if second = 60 then 1 else 0
    let seconds : Int :=
      date.toDays * 86400 + (hour * 3600 + minute * 60 + (second - extra) : Nat) - offset
    Instant.ofUnix? seconds (nanos + extra * 1000000000)
  else none

def parse? (text : String) : Option Instant := do
  let (year, rest) ← Digits.take? 4 text.toList
  let rest ← char? (· == '-') rest
  let (month, rest) ← Digits.take? 2 rest
  let rest ← char? (· == '-') rest
  let (day, rest) ← Digits.take? 2 rest
  let rest ← char? (fun char => char == 'T' || char == 't' || char == ' ') rest
  let (hour, rest) ← Digits.take? 2 rest
  let rest ← char? (· == ':') rest
  let (minute, rest) ← Digits.take? 2 rest
  let rest ← char? (· == ':') rest
  let (second, rest) ← Digits.take? 2 rest
  let (nanos, rest) ← fraction? rest
  let (offset, rest) ← offset? rest
  if rest = [] then instant? ⟨year, month, day⟩ hour minute second nanos offset else none

end CrawlBoard.Rfc3339
