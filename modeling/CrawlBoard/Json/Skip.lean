import CrawlBoard.Json.Reader
/-!
Values that are passed over. Only their form is checked; brackets may be nested without limit.
-/

namespace CrawlBoard.Json

open Utf8 (Bytes)

inductive Bracket where
  | list
  | object
  deriving DecidableEq, Repr

def Bracket.close : Bracket → UInt8
  | .list => 0x5D
  | .object => 0x7D

def Bracket.cut : Bracket → Fault
  | .list => .endOfList
  | .object => .endOfObject

def Bracket.commaOrEnd : Bracket → Fault
  | .list => .expectedListCommaOrEnd
  | .object => .expectedObjectCommaOrEnd

def skipToken (rest : Bytes) : Except Failure (Option Bracket × Bytes) :=
  match skipBlanks rest with
  | [] => failAt .endOfValue []
  | 0x6E :: rest => (wordNull rest).map (none, ·)
  | 0x74 :: rest => (wordTrue rest).map (none, ·)
  | 0x66 :: rest => (wordFalse rest).map (none, ·)
  | 0x2D :: rest => (skipNumber rest).map (none, ·)
  | 0x22 :: rest => (skipText rest).map (none, ·)
  | 0x5B :: rest => .ok (some .list, rest)
  | 0x7B :: rest => .ok (some .object, rest)
  | byte :: rest =>
      if isDigit byte then (skipNumber (byte :: rest)).map (none, ·)
      else failAt .expectedValue (byte :: rest)

/-- Closes brackets and passes a comma. What is left of the stack is empty when the value has ended. -/
def skipClosers (afterValue : Bool) (stack : List Bracket) (rest : Bytes) :
    Except Failure (List Bracket × Bytes) :=
  match stack with
  | [] => .ok ([], rest)
  | bracket :: outer =>
      match skipBlanks rest with
      | [] => failAt bracket.cut []
      | byte :: tail =>
          if afterValue && byte == 0x2C then .ok (bracket :: outer, tail)
          else if byte == bracket.close then skipClosers true outer tail
          else if afterValue then failAt bracket.commaOrEnd (byte :: tail)
          else .ok (bracket :: outer, byte :: tail)

def skipName (rest : Bytes) : Except Failure Bytes :=
  match skipBlanks rest with
  | [] => failAt .endOfObject []
  | 0x22 :: rest => do
      let rest ← skipText rest
      colon rest
  | rest => failAt .keyNotText rest

def skipWithin : Nat → List Bracket → Bytes → Except Failure Bytes
  | 0, _, rest => failAt .endOfValue rest
  | fuel + 1, stack, rest => do
      let (opened, rest) ← skipToken rest
      let (stack, rest) ← match opened with
        | some bracket => skipClosers false (bracket :: stack) rest
        | none => skipClosers true stack rest
      match stack with
      | [] => .ok rest
      | .list :: _ => skipWithin fuel stack rest
      | .object :: _ =>
          let rest ← skipName rest
          skipWithin fuel stack rest

def skipValue (rest : Bytes) : Except Failure Bytes := skipWithin (rest.length + 1) [] rest

end CrawlBoard.Json
