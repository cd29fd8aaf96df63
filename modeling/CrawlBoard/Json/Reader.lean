import CrawlBoard.Json.Numeral
import CrawlBoard.Json.Text

namespace CrawlBoard.Json

open Utf8 (Bytes)

abbrev Reader (α : Type) := Bytes → Except Failure (α × Bytes)

def isBlank (byte : UInt8) : Bool :=
  byte == 0x20 || byte == 0x0A || byte == 0x09 || byte == 0x0D

def skipBlanks (rest : Bytes) : Bytes := rest.dropWhile isBlank

def word : Bytes → Bytes → Except Failure Bytes
  | [], rest => .ok rest
  | _ :: _, [] => fail .endOfValue []
  | letter :: letters, byte :: rest =>
      if letter = byte then word letters rest else fail .expectedWord rest

def wordNull (rest : Bytes) : Except Failure Bytes := word [0x75, 0x6C, 0x6C] rest

def wordTrue (rest : Bytes) : Except Failure Bytes := word [0x72, 0x75, 0x65] rest

def wordFalse (rest : Bytes) : Except Failure Bytes := word [0x61, 0x6C, 0x73, 0x65] rest

/-- The failure of a value of the wrong kind: scalars are read first, brackets are not. -/
def mismatch {α : Type} (expected : String) (rest : Bytes) : Except Failure α := do
  let refuse (found : Found) (rest : Bytes) : Except Failure α := fail (.wrongType found expected) rest
  match rest with
  | 0x6E :: tail => let rest ← wordNull tail; refuse .null rest
  | 0x74 :: tail => let rest ← wordTrue tail; refuse (.bool true) rest
  | 0x66 :: tail => let rest ← wordFalse tail; refuse (.bool false) rest
  | 0x2D :: tail => let (number, rest) ← readNumber true tail; refuse (.number number) rest
  | 0x22 :: tail => let (text, rest) ← readText tail; refuse (.text text) rest
  | 0x5B :: _ => refuse .list rest
  | 0x7B :: _ => refuse .object rest
  | [] => failAt .expectedValue []
  | byte :: _ =>
      if isDigit byte then
        let (number, rest) ← readNumber false rest
        refuse (.number number) rest
      else failAt .expectedValue rest

def value {α : Type} (read : Reader α) : Reader α := fun rest =>
  match skipBlanks rest with
  | [] => failAt .endOfValue []
  | first :: tail => read (first :: tail)

def textOf (expected : String) : Reader String := value fun
  | 0x22 :: rest => readText rest
  | rest => mismatch expected rest

def text : Reader String := textOf "a string"

def bool : Reader Bool := value fun
  | 0x74 :: rest => (wordTrue rest).map fun rest => (true, rest)
  | 0x66 :: rest => (wordFalse rest).map fun rest => (false, rest)
  | rest => mismatch "a boolean" rest

def unit : Reader Unit := value fun
  | 0x6E :: rest => (wordNull rest).map fun rest => ((), rest)
  | rest => mismatch "unit" rest

def number (expected : String) : Reader Number := value fun
  | 0x2D :: rest => readNumber true rest
  | first :: rest =>
      if isDigit first then readNumber false (first :: rest) else mismatch expected (first :: rest)
  | [] => mismatch expected []

def natural (limit : Nat) (expected : String) : Reader Nat := fun rest => do
  match ← number expected rest with
  | (.unsigned n, rest) =>
      if n ≤ limit then .ok (n, rest)
      else fail (.wrongValue (.number (.unsigned n)) expected) rest
  | (.negative n, rest) => fail (.wrongValue (.number (.negative n)) expected) rest
  | (.real x, rest) => fail (.wrongType (.number (.real x)) expected) rest

def Number.toFloat : Number → Float
  | .unsigned n => (UInt64.ofNat n).toFloat
  | .negative n => -(UInt64.ofNat n).toFloat
  | .real x => x

def float : Reader Float := fun rest => do
  let (number, rest) ← number "f64" rest
  .ok (number.toFloat, rest)

def optional {α : Type} (read : Reader α) : Reader (Option α) := fun rest =>
  match skipBlanks rest with
  | 0x6E :: tail => (wordNull tail).map fun rest => (none, rest)
  | rest => (read rest).map fun (a, rest) => (some a, rest)

def colon (rest : Bytes) : Except Failure Bytes :=
  match skipBlanks rest with
  | [] => failAt .endOfObject []
  | 0x3A :: rest => .ok rest
  | rest => failAt .expectedColon rest

def closeList (rest : Bytes) : Bytes × Except Failure Unit :=
  match skipBlanks rest with
  | [] => ([], failAt .endOfList [])
  | 0x5D :: rest => (rest, .ok ())
  | 0x2C :: rest =>
      match skipBlanks rest with
      | 0x5D :: tail => (0x5D :: tail, failAt .trailingComma (0x5D :: tail))
      | rest => (rest, failAt .trailingCharacters rest)
  | rest => (rest, failAt .trailingCharacters rest)

def closeObject (rest : Bytes) : Bytes × Except Failure Unit :=
  match skipBlanks rest with
  | [] => ([], failAt .endOfObject [])
  | 0x7D :: rest => (rest, .ok ())
  | 0x2C :: rest => (0x2C :: rest, failAt .trailingComma (0x2C :: rest))
  | rest => (rest, failAt .trailingCharacters rest)

def nextElement (first : Bool) (rest : Bytes) : Except Failure (Bool × Bytes) :=
  match skipBlanks rest with
  | [] => failAt .endOfList []
  | 0x5D :: rest => .ok (false, 0x5D :: rest)
  | byte :: tail =>
      if first then .ok (true, byte :: tail)
      else if byte = 0x2C then
        match skipBlanks tail with
        | [] => failAt .endOfValue []
        | 0x5D :: tail => failAt .trailingComma (0x5D :: tail)
        | rest => .ok (true, rest)
      else failAt .expectedListCommaOrEnd (byte :: tail)

def nextName (first : Bool) (rest : Bytes) : Except Failure (Bool × Bytes) :=
  match skipBlanks rest with
  | [] => failAt .endOfObject []
  | 0x7D :: rest => .ok (false, 0x7D :: rest)
  | byte :: tail =>
      if first then
        if byte = 0x22 then .ok (true, tail) else failAt .keyNotText (byte :: tail)
      else if byte = 0x2C then
        match skipBlanks tail with
        | [] => failAt .endOfValue []
        | 0x22 :: tail => .ok (true, tail)
        | 0x7D :: tail => failAt .trailingComma (0x7D :: tail)
        | rest => failAt .keyNotText rest
      else failAt .expectedObjectCommaOrEnd (byte :: tail)

/-- The elements up to the closing bracket, which is left; every element takes at least one byte of the fuel. -/
def elements {α : Type} (read : Reader α) : Nat → Bool → Reader (List α)
  | 0, _, rest => failAt .endOfList rest
  | fuel + 1, first, rest => do
      match ← nextElement first rest with
      | (false, rest) => .ok ([], rest)
      | (true, rest) =>
          let (item, rest) ← read rest
          let (items, rest) ← elements read fuel false rest
          .ok (item :: items, rest)

def list {α : Type} (read : Reader α) : Reader (List α) := value fun
  | 0x5B :: rest => do
      let (items, rest) ← elements read (rest.length + 1) true rest
      let (rest, closed) := closeList rest
      closed
      .ok (items, rest)
  | rest => mismatch "a sequence" rest

def variant {α : Type} (variants : List (String × α)) : Reader α := value fun
  | 0x7B :: rest => do
      let (chosen, rest) ← choose rest
      let rest ← colon rest
      let ((), rest) ← unit rest
      match skipBlanks rest with
      | [] => fail .endOfObject []
      | 0x7D :: rest => .ok (chosen, rest)
      | rest => fail .expectedValue rest
  | 0x22 :: rest => choose (0x22 :: rest)
  | rest => failAt .expectedValue rest
where
  choose (rest : Bytes) : Except Failure (α × Bytes) := do
    let (name, rest) ← textOf "variant identifier" rest
    match variants.lookup name with
    | some chosen => .ok (chosen, rest)
    | none => fail (.unknownVariant name (variants.map (·.1))) rest

def document {α : Type} (read : Reader α) (bytes : Bytes) : Except Failure α := do
  let (a, rest) ← read bytes
  match skipBlanks rest with
  | [] => .ok a
  | rest => failAt .trailingCharacters rest

end CrawlBoard.Json
