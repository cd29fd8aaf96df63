import CrawlBoard.Json.Skip
/-!
Records: objects with known names, or lists with one element per field. Names may be given in any
order, unknown ones are passed over, a field that is given twice is refused.
-/

namespace CrawlBoard.Json

open Utf8 (Bytes)

/-- How a record of type `α` with fields `φ` is put together from a draft `δ`. -/
structure Shape (φ δ α : Type) where
  expected : String
  fields : List φ
  field? : String → Option φ
  name : φ → String
  optional : φ → Bool
  blank : δ
  has : φ → δ → Bool
  read : φ → δ → Reader δ
  finish : δ → Except Fault α

variable {φ δ α : Type}

/-- The fields of an object up to its closing bracket. A fault of the record as a whole is placed later. -/
def Shape.members (shape : Shape φ δ α) : Nat → Bool → δ → Reader (Except Fault α)
  | 0, _, _, rest => failAt .endOfObject rest
  | fuel + 1, first, draft, rest => do
      match ← nextName first rest with
      | (false, rest) => .ok (shape.finish draft, rest)
      | (true, rest) =>
          let (name, rest) ← readText rest
          match shape.field? name with
          | none =>
              let rest ← colon rest
              let rest ← skipValue rest
              shape.members fuel false draft rest
          | some field =>
              if shape.has field draft then .ok (.error (.duplicateField (shape.name field)), rest)
              else
                let rest ← colon rest
                let (draft, rest) ← shape.read field draft rest
                shape.members fuel false draft rest

def Shape.listLength (shape : Shape φ δ α) : String :=
  shape.expected ++ " with " ++ toString shape.fields.length ++ " elements"

def Shape.positions (shape : Shape φ δ α) : List φ → Nat → Bool → δ → Reader (Except Fault α)
  | [], _, _, draft, rest => .ok (shape.finish draft, rest)
  | field :: fields, index, first, draft, rest => do
      match ← nextElement first rest with
      | (true, rest) =>
          let (draft, rest) ← shape.read field draft rest
          shape.positions fields (index + 1) false draft rest
      | (false, rest) =>
          if shape.optional field then shape.positions fields (index + 1) first draft rest
          else .ok (.error (.wrongLength index shape.listLength), rest)

def settle (outcome : Except Fault α) (closing : Bytes × Except Failure Unit) :
    Except Failure (α × Bytes) :=
  match outcome with
  | .error fault => fail fault closing.1
  | .ok a => closing.2.map fun _ => (a, closing.1)

def Shape.record (shape : Shape φ δ α) : Reader α := value fun
  | 0x7B :: rest => do
      let (outcome, rest) ← shape.members (rest.length + 1) true shape.blank rest
      settle outcome (closeObject rest)
  | 0x5B :: rest => do
      let (outcome, rest) ← shape.positions shape.fields 0 true shape.blank rest
      settle outcome (closeList rest)
  | rest => mismatch shape.expected rest

end CrawlBoard.Json
