import CrawlBoard.Json.Fault
/-!
Numbers of JSON. Integers stay exact up to 64 bits; all else is a significand of at most 64 bits,
multiplied or divided once by a power of ten.
-/

namespace CrawlBoard.Json

open Utf8 (Bytes)

def isDigit (byte : UInt8) : Bool := 0x30 ≤ byte && byte ≤ 0x39

def maxWord : Nat := 0xFFFFFFFFFFFFFFFF

/-- Digits are taken up while the significand fits in 64 bits; counts those left out. -/
def absorb (significand : Nat) : Bytes → Nat × Nat
  | [] => (significand, 0)
  | digit :: digits =>
      let next := significand * 10 + (digit.toNat - 48)
      if next > maxWord then (significand, digits.length + 1) else absorb next digits

def tenTo (exponent : Nat) : Float := Float.ofScientific 1 false exponent

def shrink (x : Float) (exponent : Nat) : Float :=
  if exponent ≤ 308 then x / tenTo exponent
  else if x == 0.0 then x
  else shrink (x / tenTo 308) (exponent - 308)
  termination_by exponent

/-- `none` when the number is too large for a double. -/
def scale? (significand : Nat) (exponent : Int) : Option Float :=
  let x := (UInt64.ofNat significand).toFloat
  if exponent < 0 then some (shrink x exponent.natAbs)
  else if exponent ≤ 308 then
    let scaled := x * tenTo exponent.toNat
    if scaled.isInf then none else some scaled
  else if x == 0.0 then some x
  else none

def withSign (negative : Bool) (x : Float) : Float := if negative then -x else x

def finishReal (negative : Bool) (significand : Nat) (exponent : Int) (rest : Bytes) :
    Except Failure (Number × Bytes) :=
  match scale? significand exponent with
  | some x => .ok (.real (withSign negative x), rest)
  | none => fail .numberOutOfRange rest

def maxExponent : Nat := 0x7FFFFFFF

/-- Reads an exponent's digits; `none` with the bytes after the digit that made it too large. -/
def exponentDigits (value : Nat) : Bytes → Option Nat × Bytes
  | [] => (some value, [])
  | byte :: rest =>
      if isDigit byte then
        let next := value * 10 + (byte.toNat - 48)
        if next > maxExponent then (none, rest) else exponentDigits next rest
      else (some value, byte :: rest)

def readExponent (negative : Bool) (significand : Nat) (exponent : Int) (rest : Bytes) :
    Except Failure (Number × Bytes) :=
  let (down, rest) := match rest with
    | 0x2B :: rest => (false, rest)
    | 0x2D :: rest => (true, rest)
    | rest => (false, rest)
  match rest with
  | [] => fail .endOfValue []
  | byte :: tail =>
      if !isDigit byte then fail .invalidNumber tail
      else match exponentDigits (byte.toNat - 48) tail with
        | (some value, rest) =>
            finishReal negative significand (if down then exponent - value else exponent + value) rest
        | (none, rest) =>
            if significand ≠ 0 ∧ !down then fail .numberOutOfRange rest
            else .ok (.real (withSign negative 0.0), rest.dropWhile isDigit)

def readFraction (negative : Bool) (significand : Nat) (exponent : Int) (rest : Bytes) :
    Except Failure (Number × Bytes) :=
  let digits := rest.takeWhile isDigit
  let after := rest.dropWhile isDigit
  if digits = [] then
    if after = [] then failAt .endOfValue after else failAt .invalidNumber after
  else
    let (significand, omitted) := absorb significand digits
    let exponent := exponent - (digits.length - omitted : Nat)
    match after with
    | byte :: tail =>
        if byte = 0x65 ∨ byte = 0x45 then readExponent negative significand exponent tail
        else finishReal negative significand exponent after
    | [] => finishReal negative significand exponent after

/-- An integer: negative ones reach down to `-0x8000000000000000`, and zero has no negative. -/
def integer (negative : Bool) (significand : Nat) : Number :=
  if !negative then .unsigned significand
  else if 0 < significand ∧ significand ≤ 0x8000000000000000 then .negative significand
  else .real (-(UInt64.ofNat significand).toFloat)

def readNumber (negative : Bool) (rest : Bytes) : Except Failure (Number × Bytes) :=
  let digits := rest.takeWhile isDigit
  let after := rest.dropWhile isDigit
  match digits with
  | [] => if after = [] then fail .endOfValue [] else failAt .invalidNumber after
  | first :: others =>
      if first = 0x30 ∧ others ≠ [] then failAt .invalidNumber (others ++ after)
      else
        let (significand, omitted) := absorb 0 digits
        match after with
        | byte :: tail =>
            if byte = 0x2E then readFraction negative significand omitted tail
            else if byte = 0x65 ∨ byte = 0x45 then readExponent negative significand omitted tail
            else whole negative significand omitted after
        | [] => whole negative significand omitted after
where
  whole (negative : Bool) (significand omitted : Nat) (after : Bytes) :=
    if omitted = 0 then .ok (integer negative significand, after)
    else finishReal negative significand omitted after

/-- A number that is passed over: its form is checked, its size is not. -/
def skipNumber (rest : Bytes) : Except Failure Bytes :=
  let digits := rest.takeWhile isDigit
  let after := rest.dropWhile isDigit
  match digits with
  | [] => failAt .invalidNumber after
  | first :: others =>
      if first = 0x30 ∧ others ≠ [] then failAt .invalidNumber (others ++ after)
      else match after with
        | byte :: tail =>
            if byte = 0x2E then fraction tail
            else if byte = 0x65 ∨ byte = 0x45 then exponent tail
            else .ok after
        | [] => .ok after
where
  fraction (rest : Bytes) : Except Failure Bytes :=
    let after := rest.dropWhile isDigit
    if rest.takeWhile isDigit = [] then failAt .invalidNumber after
    else match after with
      | byte :: tail => if byte = 0x65 ∨ byte = 0x45 then exponent tail else .ok after
      | [] => .ok after
  exponent (rest : Bytes) : Except Failure Bytes :=
    let unsigned := match rest with
      | byte :: tail => if byte = 0x2B ∨ byte = 0x2D then tail else rest
      | [] => rest
    match unsigned with
    | byte :: tail => if isDigit byte then .ok (tail.dropWhile isDigit) else fail .invalidNumber tail
    | [] => fail .invalidNumber []

end CrawlBoard.Json
