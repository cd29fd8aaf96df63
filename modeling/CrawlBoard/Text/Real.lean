import CrawlBoard.Text.Digits

namespace CrawlBoard.Real

/-- A finite double is `mantissa * 2 ^ exponent`, with a sign. -/
structure Parts where
  negative : Bool
  mantissa : Nat
  exponent : Int
  deriving DecidableEq, Repr

def fractionBound : Nat := 0x10000000000000

def signBit : Nat := 0x8000000000000000

def parts (x : Float) : Parts :=
  let bits := x.toBits.toNat
  let field : Nat := bits / fractionBound % 2048
  let fraction := bits % fractionBound
  if field = 0 then ⟨signBit ≤ bits, fraction, -1074⟩
  else ⟨signBit ≤ bits, fractionBound + fraction, (field : Int) - 1075⟩

def isFinite (x : Float) : Bool := x.toBits.toNat / fractionBound % 2048 ≠ 2047

structure Ratio where
  num : Nat
  den : Nat
  deriving DecidableEq, Repr

def Ratio.le (x y : Ratio) : Bool := x.num * y.den ≤ y.num * x.den

def Ratio.lt (x y : Ratio) : Bool := x.num * y.den < y.num * x.den

def Ratio.scaled (base value : Nat) (exponent : Int) : Ratio :=
  if 0 ≤ exponent then ⟨value * Nat.pow base exponent.toNat, 1⟩ else ⟨value, Nat.pow base exponent.natAbs⟩

def Parts.ratio (parts : Parts) : Ratio := Ratio.scaled 2 parts.mantissa parts.exponent

/-- The reals that round to a double; its ends belong to it when the mantissa is even. -/
structure Interval where
  low : Ratio
  high : Ratio
  closed : Bool

def Parts.interval (parts : Parts) : Interval :=
  let below := if parts.mantissa = fractionBound ∧ parts.exponent > -1074 then 1 else 2
  ⟨Ratio.scaled 2 (4 * parts.mantissa - below) (parts.exponent - 2),
    Ratio.scaled 2 (4 * parts.mantissa + 2) (parts.exponent - 2), parts.mantissa % 2 = 0⟩

def Interval.contains (interval : Interval) (x : Ratio) : Bool :=
  if interval.closed then interval.low.le x && x.le interval.high
  else interval.low.lt x && x.lt interval.high

/-- The power of ten just above a positive rational: `10 ^ (m - 1) ≤ x < 10 ^ m`. -/
def Ratio.magnitude (x : Ratio) : Int :=
  if x.den ≤ x.num then (Nat.toDigits 10 (x.num / x.den)).length
  else 1 - ((Nat.toDigits 10 ((x.den - 1) / x.num)).length : Int)

structure Decimal where
  digits : Nat
  exponent : Int
  deriving DecidableEq, Repr

def Decimal.ratio (decimal : Decimal) : Ratio := Ratio.scaled 10 decimal.digits decimal.exponent

/-- The largest point not above `x` on the grid of multiples of `10 ^ exponent`. -/
def floorOn (x : Ratio) (exponent : Int) : Decimal :=
  let step := Ratio.scaled 10 1 exponent
  ⟨x.num * step.den / (x.den * step.num), exponent⟩

/-- Of a point and its successor, the nearer one to `x`; the even one when both are equally near. -/
def nearer (x : Ratio) (point : Decimal) : Decimal :=
  let next : Decimal := ⟨point.digits + 1, point.exponent⟩
  let sum := Ratio.scaled 10 (point.digits + next.digits) point.exponent
  let twice : Ratio := ⟨2 * x.num, x.den⟩
  if twice.lt sum then point
  else if sum.lt twice then next
  else if point.digits % 2 = 0 then point else next

def hit? (x : Ratio) (interval : Interval) (exponent : Int) : Option Decimal :=
  let point := floorOn x exponent
  let next : Decimal := ⟨point.digits + 1, exponent⟩
  match interval.contains point.ratio, interval.contains next.ratio with
  | true, true => some (nearer x point)
  | true, false => some point
  | false, true => some next
  | false, false => none

/-- Grids are tried from one digit on; seventeen always suffice. -/
def shortest (parts : Parts) : Decimal :=
  let x := parts.ratio
  let magnitude := x.magnitude
  ((List.range 17).findSome? fun (count : Nat) => hit? x parts.interval (magnitude - (count + 1))).getD
    (floorOn x (magnitude - 17))

def Decimal.significant (decimal : Decimal) : List Char × Int :=
  let digits := Nat.toDigits 10 decimal.digits
  let kept := (digits.reverse.dropWhile (· == '0')).reverse
  (kept, decimal.exponent + (digits.length - kept.length : Nat))

def zeros (count : Nat) : List Char := List.replicate count '0'

/-- Positional while the point stands at most five places before the digits and sixteen after
their start; else one digit, the others, and an exponent with its sign. -/
def layout (digits : List Char) (exponent : Int) : List Char :=
  let point := digits.length + exponent
  if 0 ≤ exponent ∧ point ≤ 16 then digits ++ zeros exponent.toNat ++ ['.', '0']
  else if 0 < point ∧ point ≤ 16 then
    digits.take point.toNat ++ '.' :: digits.drop point.toNat
  else if -5 < point ∧ point ≤ 0 then '0' :: '.' :: (zeros point.natAbs ++ digits)
  else
    let tail := if digits.length = 1 then [] else '.' :: digits.drop 1
    let sign := if point - 1 < 0 then '-' else '+'
    digits.take 1 ++ tail ++ 'e' :: sign :: Nat.toDigits 10 (point - 1).natAbs

def shortestText (x : Float) : String :=
  let parts := parts x
  let magnitude :=
    if parts.mantissa = 0 then ['0', '.', '0']
    else
      let (digits, exponent) := (shortest parts).significant
      layout digits exponent
  String.ofList (if parts.negative then '-' :: magnitude else magnitude)

def Ratio.round (x : Ratio) : Nat :=
  let quotient := x.num / x.den
  let rest := x.num % x.den
  if 2 * rest < x.den then quotient
  else if x.den < 2 * rest then quotient + 1
  else quotient + quotient % 2

def fixedText (x : Float) : String :=
  let parts := parts x
  let hundredths := Ratio.round ⟨parts.ratio.num * 100, parts.ratio.den⟩
  (if parts.negative then "-" else "")
    ++ String.ofList (Nat.toDigits 10 (hundredths / 100)) ++ "." ++ Digits.pad 2 (hundredths % 100)

end CrawlBoard.Real
