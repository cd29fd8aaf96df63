
namespace CrawlBoard.Digits

def isDigit (char : Char) : Bool := '0' ≤ char && char ≤ '9'

def value (digits : List Char) : Nat :=
  digits.foldl (fun total digit => total * 10 + (digit.toNat - 48)) 0

def pad (width number : Nat) : String :=
  let digits := Nat.toDigits 10 number
  String.ofList (List.replicate (width - digits.length) '0' ++ digits)

def take? (width : Nat) (text : List Char) : Option (Nat × List Char) :=
  let digits := text.take width
  if digits.length = width ∧ digits.all isDigit then some (value digits, text.drop width) else none

inductive ParseError where
  | empty
  | invalid
  | tooLarge
  deriving DecidableEq, Repr

def ParseError.message : ParseError → String
  | .empty => "cannot parse integer from empty string"
  | .invalid => "invalid digit found in string"
  | .tooLarge => "number too large to fit in target type"

/-- Digits, with a plus sign before them or none; at most `limit`. -/
def parse (limit : Nat) (text : String) : Except ParseError Nat :=
  match text.toList with
  | [] => .error .empty
  | first :: rest =>
      let digits := if first = '+' ∧ rest ≠ [] then rest else first :: rest
      if digits.all isDigit then
        if value digits ≤ limit then .ok (value digits) else .error .tooLarge
      else if (digits.takeWhile isDigit).length > 0
          ∧ value (digits.takeWhile isDigit) > limit then .error .tooLarge
      else .error .invalid

end CrawlBoard.Digits
