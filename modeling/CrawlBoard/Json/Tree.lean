import CrawlBoard.Text.Real

namespace CrawlBoard.Json

inductive Tree where
  | null
  | bool (value : Bool)
  | natural (value : Nat)
  | real (value : Float)
  | text (value : String)
  | list (items : List Tree)
  | object (members : List (String × Tree))
  deriving Repr

def hexLower (value : Nat) : Char :=
  if value < 10 then Char.ofNat (48 + value) else Char.ofNat (87 + value)

/-- Only quotes, backslashes and control characters are escaped. -/
def escapeChar (char : Char) : List Char :=
  match char with
  | '"' => ['\\', '"']
  | '\\' => ['\\', '\\']
  | '\x08' => ['\\', 'b']
  | '\x0c' => ['\\', 'f']
  | '\n' => ['\\', 'n']
  | '\r' => ['\\', 'r']
  | '\t' => ['\\', 't']
  | _ =>
      if char.toNat < 0x20 then
        ['\\', 'u', '0', '0', hexLower (char.toNat / 16), hexLower (char.toNat % 16)]
      else [char]

def quote (text : String) : String :=
  String.ofList ('"' :: (text.toList.flatMap escapeChar ++ ['"']))

/-- A double that is not finite has no numeral. -/
def realText (x : Float) : String := if Real.isFinite x then Real.shortestText x else "null"

def openBrace : String := "\x7b"

def closeBrace : String := "\x7d"

mutual

def Tree.compact : Tree → String
  | .null => "null"
  | .bool true => "true"
  | .bool false => "false"
  | .natural value => toString value
  | .real value => realText value
  | .text value => quote value
  | .list items => "[" ++ ",".intercalate (compactItems items) ++ "]"
  | .object members => openBrace ++ ",".intercalate (compactMembers members) ++ closeBrace

def compactItems : List Tree → List String
  | [] => []
  | item :: items => item.compact :: compactItems items

def compactMembers : List (String × Tree) → List String
  | [] => []
  | (name, tree) :: members => (quote name ++ ":" ++ tree.compact) :: compactMembers members

end

def indent (depth : Nat) : String := "\n" ++ String.ofList (List.replicate (2 * depth) ' ')

def block (left right : String) (depth : Nat) (lines : List String) : String :=
  if lines.isEmpty then left ++ right
  else left ++ indent (depth + 1) ++ ("," ++ indent (depth + 1)).intercalate lines
    ++ indent depth ++ right

mutual

def Tree.prettyAt (depth : Nat) : Tree → String
  | .list items => block "[" "]" depth (prettyItems (depth + 1) items)
  | .object members => block openBrace closeBrace depth (prettyMembers (depth + 1) members)
  | .null => "null"
  | .bool true => "true"
  | .bool false => "false"
  | .natural value => toString value
  | .real value => realText value
  | .text value => quote value

def prettyItems (depth : Nat) : List Tree → List String
  | [] => []
  | item :: items => item.prettyAt depth :: prettyItems depth items

def prettyMembers (depth : Nat) : List (String × Tree) → List String
  | [] => []
  | (name, tree) :: members => (quote name ++ ": " ++ tree.prettyAt depth) :: prettyMembers depth members

end

def Tree.pretty (tree : Tree) : String := tree.prettyAt 0

def insertMember (name : String) (tree : Tree) : List (String × Tree) → List (String × Tree)
  | [] => [(name, tree)]
  | (other, old) :: members =>
      if name = other then (name, tree) :: members
      else if name < other then (name, tree) :: (other, old) :: members
      else (other, old) :: insertMember name tree members

mutual

/-- Members in the order of their names, at every level; of equal names the last one stays. -/
def Tree.sorted : Tree → Tree
  | .list items => .list (sortedItems items)
  | .object members => .object (sortedMembers [] members)
  | .null => .null
  | .bool value => .bool value
  | .natural value => .natural value
  | .real value => if Real.isFinite value then .real value else .null
  | .text value => .text value

def sortedItems : List Tree → List Tree
  | [] => []
  | item :: items => item.sorted :: sortedItems items

def sortedMembers (done : List (String × Tree)) : List (String × Tree) → List (String × Tree)
  | [] => done
  | (name, tree) :: members => sortedMembers (insertMember name tree.sorted done) members

end

end CrawlBoard.Json
