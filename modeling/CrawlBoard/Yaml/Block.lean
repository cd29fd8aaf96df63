import CrawlBoard.Yaml.Scalar

namespace CrawlBoard.Yaml

inductive Chomp where
  | clip
  | strip
  | keep
  deriving DecidableEq, Repr

structure BlockHeader where
  folded : Bool
  chomp? : Option Chomp := none
  indent? : Option Nat := none

def BlockHeader.read (header : BlockHeader) : Chars → BlockHeader × Chars
  | [] => (header, [])
  | mark :: rest =>
      let chomp := [('-', Chomp.strip), ('+', Chomp.keep)].lookup mark
      if chomp.isSome && header.chomp?.isNone then BlockHeader.read { header with chomp? := chomp } rest
      else if '1' ≤ mark && mark ≤ '9' && header.indent?.isNone then
        BlockHeader.read { header with indent? := some (mark.toNat - 48) } rest
      else (header, mark :: rest)

structure BlockLine where
  text : Chars
  close : Chars
  deriving Repr

def takeLine (rest : Chars) : BlockLine × Chars :=
  let text := rest.takeWhile fun char => !isBreak char
  let after := rest.drop text.length
  (⟨text, after.take 1⟩, after.drop 1)

def indentOf (text : Chars) : Nat := (text.takeWhile (· = ' ')).length

/-- Blank lines may be shorter than the indentation, but they hold no tabs there. -/
def blockLines? (indent : Nat) : Nat → Chars → Option (List BlockLine × Chars)
  | 0, _ => none
  | _, [] => some ([], [])
  | fuel + 1, rest => do
      let (line, after) := takeLine rest
      let spaces := indentOf line.text
      if spaces ≥ indent || spaces = line.text.length then
        let (lines, after) ← blockLines? indent fuel after
        some (⟨line.text.drop indent, line.close⟩ :: lines, after)
      else if line.text[spaces]? = some '\t' then none
      else some ([], rest)

/-- The deepest indentation up to the first line that is not blank. Tabs do not indent. -/
def detectIndent? : Nat → Chars → Option Nat
  | 0, _ => none
  | _, [] => some 0
  | fuel + 1, rest =>
      let (line, after) := takeLine rest
      let spaces := indentOf line.text
      match line.text[spaces]? with
      | some '\t' => none
      | some _ => some spaces
      | none => (detectIndent? fuel after).map (max spaces)

/-- Joins lines. In a folded block a line that starts with a blank keeps its line ends. -/
def joinLines (folded : Bool) (previous : BlockLine) (empty : Chars) : List BlockLine → Chars
  | [] => []
  | line :: lines =>
      if line.text.isEmpty then joinLines folded previous (empty ++ line.close) lines
      else
        let indented (line : BlockLine) : Bool := line.text.head?.any isBlank
        let breaks := previous.close ++ empty
        let joint :=
          if folded && !previous.text.isEmpty && !indented previous && !indented line then fold breaks
          else breaks
        joint ++ line.text ++ joinLines folded line [] lines

def joinBlock (header : BlockHeader) (lines : List BlockLine) : Chars :=
  let content := Search.dropTrailing (·.text.isEmpty) lines
  let text := joinLines header.folded ⟨[], []⟩ [] content
  let last := content.getLast?.elim [] (·.close)
  let trailing := (lines.drop content.length).flatMap (·.close)
  match header.chomp?.getD .clip with
  | .strip => text
  | .clip => text ++ last
  | .keep => text ++ last ++ trailing

def block? (least : Nat) (cursor : Cursor) : Option (Chars × Cursor) := do
  let (header, rest) :=
    BlockHeader.read { folded := cursor.rest.head? == some '>' } (cursor.rest.drop 1)
  let (comment, rest) := takeLine (rest.dropWhile isBlank)
  if comment.text.head?.any (· ≠ '#') then none
  else
    let fuel := rest.length + 1
    let indent ← match header.indent? with
      | some extra => some (least - 1 + extra)
      | none => (detectIndent? fuel rest).map fun deepest => max deepest (max least 1)
    let (lines, rest) ← blockLines? indent fuel rest
    some (joinBlock header lines, { rest })

end CrawlBoard.Yaml
