import CrawlBoard.Toml.Scalar
/-!
Scalars of YAML: plain ones, quoted ones and blocks. Lines inside a scalar are folded: one line
end becomes a blank, of more the first is left out.
-/

namespace CrawlBoard.Yaml

abbrev Chars := List Char

inductive Style where
  | plain
  | quoted
  | literal
  | folded
  deriving DecidableEq, Repr

def isBlank (char : Char) : Bool := char = ' ' || char = '\t'

def isBreak (char : Char) : Bool := char = '\n' || char = '\u2028' || char = '\u2029'

def unifyBreaks : Chars → Chars
  | [] => []
  | '\r' :: '\n' :: rest => '\n' :: unifyBreaks rest
  | char :: rest => (if char = '\r' || char = '\u0085' then '\n' else char) :: unifyBreaks rest

def isPrintable (char : Char) : Bool :=
  let code := char.toNat
  isBreak char || char = '\t' || char = '\r' || char = '\u0085' || (0x20 ≤ code && code ≤ 0x7E)
    || (0xA0 ≤ code && code ≠ 0xFFFE && code ≠ 0xFFFF)

def breaksOff (rest : Chars) : Bool := rest.head?.all fun char => isBlank char || isBreak char

def isFlowMark (char : Char) : Bool := ",[]\x7b\x7d".toList.contains char

structure Cursor where
  column : Nat := 0
  /-- Whether a key or an element of a block may start here. -/
  fresh : Bool := true
  rest : Chars
  deriving Repr

namespace Cursor

def advance (cursor : Cursor) (count : Nat) : Cursor :=
  ⟨cursor.column + count, false, cursor.rest.drop count⟩

def opened (cursor : Cursor) : Cursor := { cursor with fresh := true }

def skip (inFlow : Bool) (column : Nat) (fresh inComment : Bool) : Chars → Cursor
  | [] => ⟨column, fresh, []⟩
  | char :: rest =>
      if isBreak char then skip inFlow 0 (fresh || !inFlow) false rest
      else if inComment || char = ' ' || (char = '\t' && (inFlow || !fresh))
          || (char = '\uFEFF' && column = 0) then
        skip inFlow (column + 1) fresh inComment rest
      else if char = '#' then skip inFlow column fresh true rest
      else ⟨column, fresh, char :: rest⟩

def next (inFlow : Bool) (cursor : Cursor) : Cursor :=
  skip inFlow cursor.column cursor.fresh false cursor.rest

def skipBlanks (cursor : Cursor) : Cursor :=
  let blanks := (cursor.rest.takeWhile isBlank).length
  ⟨cursor.column + blanks, cursor.fresh, cursor.rest.drop blanks⟩

def isMarker (mark : Char) (cursor : Cursor) : Bool :=
  cursor.column = 0 && [mark, mark, mark].isPrefixOf cursor.rest && breaksOff (cursor.rest.drop 3)

def atEnd (cursor : Cursor) : Bool :=
  cursor.rest.isEmpty || cursor.isMarker '-' || cursor.isMarker '.'

def isMark (mark : Char) (cursor : Cursor) : Bool :=
  cursor.rest.head? == some mark && breaksOff (cursor.rest.drop 1)

end Cursor

/-- The line ends among the blanks that follow, and the cursor behind them. No tab may stand at
the start of a line before column `least`. -/
def breaks? (least column : Nat) (fresh : Bool) : Chars → Option (Chars × Cursor)
  | [] => some ([], ⟨column, fresh, []⟩)
  | char :: rest =>
      if isBreak char then
        (breaks? least 0 true rest).map fun (breaks, cursor) => (char :: breaks, cursor)
      else if isBlank char then
        if fresh && char = '\t' && column < least then none
        else breaks? least (column + 1) fresh rest
      else some ([], ⟨column, fresh, char :: rest⟩)

def Cursor.breaks? (least : Nat) (cursor : Cursor) : Option (Chars × Cursor) :=
  Yaml.breaks? least cursor.column cursor.fresh cursor.rest

def fold : Chars → Chars
  | ['\n'] => [' ']
  | '\n' :: breaks => breaks
  | breaks => breaks

def trimRight (text : Chars) : Chars := Search.dropTrailing isBlank text

/-- One line of a plain scalar, up to a comment, a colon that is set off and, inside brackets, a
mark of structure. There no mark may stand right behind a colon. -/
def plainLine? (inFlow : Bool) : Chars → Option Chars
  | [] => some []
  | char :: rest =>
      let colon := char = ':'
      if inFlow && colon && rest.head?.any (fun char => char = '?' || isFlowMark char) then none
      else if isBreak char || (isBlank char && (rest.dropWhile isBlank).head? == some '#')
          || (colon && breaksOff rest) || (inFlow && isFlowMark char) then
        some []
      else (plainLine? inFlow rest).map (char :: ·)

def startsPlain (inFlow : Bool) (rest : Chars) : Bool :=
  match rest with
  | [] => false
  | '-' :: after => !breaksOff after
  | first :: after =>
      if first = '?' || first = ':' then !inFlow && !breaksOff after
      else !(isBlank first || isBreak first || ",[]\x7b\x7d#&*!|>'\"%@`".toList.contains first)

def plain? (inFlow : Bool) (least : Nat) : Nat → Cursor → Option (Chars × Cursor)
  | 0, _ => none
  | fuel + 1, cursor => do
      let line := trimRight (← plainLine? inFlow cursor.rest)
      let (breaks, later) ← (cursor.advance line.length).breaks? least
      if line.isEmpty || breaks.isEmpty || later.atEnd || (!inFlow && later.column < least)
          || later.rest.head? == some '#' then
        some (line, later)
      else
        let (more, after) ← plain? inFlow least fuel later
        if more.isEmpty then some (line, later) else some (line ++ fold breaks ++ more, after)

def joinFolded (breaks : Chars) (later : Cursor) (read? : Cursor → Option (Chars × Cursor)) :
    Option (Chars × Cursor) :=
  if later.atEnd then none else (read? later).map fun (more, after) => (breaks ++ more, after)

def single? : Nat → Cursor → Option (Chars × Cursor)
  | 0, _ => none
  | fuel + 1, cursor =>
      match cursor.rest with
      | [] => none
      | '\'' :: '\'' :: _ => (single? fuel (cursor.advance 2)).map fun (more, after) => ('\'' :: more, after)
      | '\'' :: _ => some ([], cursor.advance 1)
      | char :: _ => do
          let (breaks, later) ← cursor.breaks? 0
          if breaks.isEmpty then
            (single? fuel (cursor.advance 1)).map fun (more, after) => (char :: more, after)
          else joinFolded (fold breaks) later (single? fuel)

def escape? (rest : Chars) : Option (Char × Nat) :=
  let byNumber (count : Nat) : Option (Char × Nat) :=
    (Toml.scalar? count (rest.drop 1)).map fun (char, _) => (char, count + 1)
  match rest.head? with
  | some 'x' => byNumber 2
  | some 'u' => byNumber 4
  | some 'U' => byNumber 8
  | some char =>
      let named := [('0', '\x00'), ('a', '\x07'), ('b', '\x08'), ('t', '\t'), ('\t', '\t'),
        ('n', '\n'), ('v', '\x0b'), ('f', '\x0c'), ('r', '\r'), ('e', '\x1b'), (' ', ' '),
        ('"', '"'), ('/', '/'), ('\\', '\\'), ('N', '\u0085'), ('_', '\u00a0'), ('L', '\u2028'),
        ('P', '\u2029')]
      (named.lookup char).map fun char => (char, 1)
  | none => none

/-- A scalar in double quotes. An escaped line end leaves no blank. -/
def double? : Nat → Cursor → Option (Chars × Cursor)
  | 0, _ => none
  | fuel + 1, cursor =>
      match cursor.rest with
      | [] => none
      | '"' :: _ => some ([], cursor.advance 1)
      | '\\' :: rest => do
          if rest.head?.any isBreak then
            let (breaks, later) ← (cursor.advance 1).breaks? 0
            joinFolded (breaks.drop 1) later (double? fuel)
          else
            let (char, count) ← escape? rest
            (double? fuel (cursor.advance (count + 1))).map fun (more, after) => (char :: more, after)
      | char :: _ => do
          let (breaks, later) ← cursor.breaks? 0
          if breaks.isEmpty then
            (double? fuel (cursor.advance 1)).map fun (more, after) => (char :: more, after)
          else joinFolded (fold breaks) later (double? fuel)

end CrawlBoard.Yaml
