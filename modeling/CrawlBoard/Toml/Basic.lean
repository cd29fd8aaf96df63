/-!
TOML documents: tables of values. A table remembers how it was written, because that decides
what may still be added to it.
-/

namespace CrawlBoard

inductive TomlValue where
  | text (value : String)
  | integer (value : Int)
  | bool (value : Bool)
  | real
  | time
  | list (items : List TomlValue)
  | table (members : List (String × TomlValue))
  deriving Repr

namespace Toml

inductive Origin where
  | implied
  | header
  | dotted
  deriving DecidableEq, Repr

inductive Node where
  | value (value : TomlValue)
  | table (origin : Origin) (members : List (String × Node))
  | tables (tables : List (List (String × Node)))

abbrev Members := List (String × Node)

def Members.set (name : String) (node : Node) : Members → Members
  | [] => [(name, node)]
  | (other, old) :: members =>
      if name = other then (name, node) :: members else (other, old) :: Members.set name node members

/-- Puts a value under a dotted key; nothing may be given twice. -/
def insert? (value : TomlValue) : List String → Members → Option Members
  | [], _ => none
  | [name], members =>
      match members.lookup name with
      | some _ => none
      | none => some (members ++ [(name, .value value)])
  | name :: path, members =>
      match members.lookup name with
      | none => (insert? value path []).map fun inner => members ++ [(name, .table .dotted inner)]
      | some (.table .dotted inner) =>
          (insert? value path inner).map fun inner => Members.set name (.table .dotted inner) members
      | some _ => none

def within? (enter : Option Node → Option Node) : List String → Members → Option Members
  | [], _ => none
  | [name], members => (enter (members.lookup name)).map fun node => Members.set name node members
  | name :: path, members =>
      match members.lookup name with
      | none => (within? enter path []).map fun inner => Members.set name (.table .implied inner) members
      | some (.table origin inner) =>
          (within? enter path inner).map fun inner => Members.set name (.table origin inner) members
      | some (.tables (last :: others)) =>
          (within? enter path last).map fun last => Members.set name (.tables (last :: others)) members
      | some _ => none

/-- A header opens a table that has not been written before. -/
def openTable? : Option Node → Option Node
  | none => some (.table .header [])
  | some (.table .implied inner) => some (.table .header inner)
  | some _ => none

def openElement? : Option Node → Option Node
  | none => some (.tables [[]])
  | some (.tables tables) => some (.tables ([] :: tables))
  | some _ => none

def extend? (add : Members → Option Members) : Option Node → Option Node
  | some (.table origin inner) => (add inner).map (.table origin)
  | some (.tables (last :: others)) => (add last).map fun last => .tables (last :: others)
  | _ => none

end Toml

end CrawlBoard
