import CrawlBoard.Yaml.Block

namespace CrawlBoard

inductive Yaml where
  | scalar (style : Yaml.Style) (tag? : Option String) (text : String)
  | list (items : List Yaml)
  | map (members : List (Yaml × Yaml))
  deriving Repr

namespace Yaml

def empty : Yaml := scalar .plain none ""

structure State where
  cursor : Cursor
  anchors : List (String × Yaml) := []

namespace State

def moveTo (state : State) (cursor : Cursor) : State := { state with cursor }

def next (state : State) : State := state.moveTo (state.cursor.next false)

def nextInFlow (state : State) : State := state.moveTo (state.cursor.next true)

def head? (state : State) : Option Char := state.cursor.rest.head?

def advance (state : State) (count : Nat) : State := state.moveTo (state.cursor.advance count)

def isFresh (state : State) : Bool := state.cursor.fresh

end State

structure Properties where
  anchor? : Option String := none
  tag? : Option String := none

def isNameChar (char : Char) : Bool := char.isAlphanum || char = '_' || char = '-'

def name? (state : State) : Option (String × State) :=
  let name := (state.cursor.rest.drop 1).takeWhile isNameChar
  let after := state.advance (name.length + 1)
  let ends := breaksOff after.cursor.rest || after.head?.any "?:,]\x7d%@`".toList.contains
  if name.isEmpty || !ends then none else some (String.ofList name, after)

def resolveTag? (text : Chars) : Option String :=
  match text with
  | '!' :: '<' :: rest =>
      if rest.getLast? = some '>' && rest.length > 1 then some (String.ofList rest.dropLast) else none
  | '!' :: '!' :: rest => if rest.isEmpty then none else some ("tag:yaml.org,2002:" ++ String.ofList rest)
  | '!' :: rest => if rest.contains '!' then none else some (String.ofList ('!' :: rest))
  | _ => none

def tag? (state : State) : Option (String × State) := do
  let text := state.cursor.rest.takeWhile fun char => !isBlank char && !isBreak char && !isFlowMark char
  let after := state.advance text.length
  let tag ← resolveTag? text
  if breaksOff after.cursor.rest || after.head? == some ',' then some (tag, after) else none

def properties? (inFlow : Bool) : Nat → Properties → State → Option (Properties × State)
  | 0, given, state => some (given, state)
  | fuel + 1, given, state =>
      let next (state : State) : State := if inFlow then state.nextInFlow else state.next
      match state.head? with
      | some '&' => do
          let (name, after) ← name? state
          if given.anchor?.isSome then none
          else properties? inFlow fuel { given with anchor? := some name } (next after)
      | some '!' => do
          let (tag, after) ← tag? state
          if given.tag?.isSome then none
          else properties? inFlow fuel { given with tag? := some tag } (next after)
      | _ => some (given, state)

def Properties.isGiven (given : Properties) : Bool := given.anchor?.isSome || given.tag?.isSome

def Properties.finish (given : Properties) (node : Yaml) (state : State) : Yaml × State :=
  let node := match node with
    | .scalar style none text => .scalar style given.tag? text
    | node => node
  match given.anchor? with
  | some name => (node, { state with anchors := (name, node) :: state.anchors })
  | none => (node, state)

def alias? (state : State) : Option (Yaml × State) := do
  let (name, after) ← name? state
  (state.anchors.lookup name).map fun node => (node, after)

def quoted? (state : State) : Option (Yaml × State) :=
  let fuel := state.cursor.rest.length + 1
  let read := match state.head? with
    | some '"' => double? fuel (state.cursor.advance 1)
    | some '\'' => single? fuel (state.cursor.advance 1)
    | _ => none
  read.map fun (text, cursor) => (.scalar .quoted none (String.ofList text), state.moveTo cursor)

def unquoted? (inFlow : Bool) (least : Nat) (state : State) : Option (Yaml × State) :=
  if startsPlain inFlow state.cursor.rest then
    (plain? inFlow least (state.cursor.rest.length + 1) state.cursor).map fun (text, cursor) =>
      (.scalar .plain none (String.ofList text), state.moveTo cursor)
  else none

def onOneLine (before after : State) : Bool :=
  !((before.cursor.rest.take (before.cursor.rest.length - after.cursor.rest.length)).any isBreak)

def closes (mark : Char) (state : State) : Bool := state.head? == some mark

mutual

def flow? (least : Nat) : Nat → State → Option (Yaml × State)
  | 0, _ => none
  | fuel + 1, start => do
      let (given, state) ← properties? true fuel {} start.nextInFlow
      let (node, state) ←
        if state.cursor.atEnd then none
        else match state.head? with
          | some '[' => flowItems? least fuel (state.advance 1)
          | some '\x7b' => flowMembers? least fuel (state.advance 1)
          | some '"' | some '\'' => quoted? state
          | some '*' => if given.isGiven then none else alias? state
          | some mark =>
              if given.isGiven && ",]\x7d:".toList.contains mark then some (empty, state)
              else unquoted? true least state
          | none => none
      some (given.finish node state)

/-- A key and, behind a colon, its value. A key without a mark stands on one line with its
colon. -/
def flowPair? (least : Nat) : Nat → State → Option (Yaml × Option Yaml × State)
  | 0, _ => none
  | fuel + 1, start => do
      let marked := closes '?' start
      let start := if marked then (start.advance 1).nextInFlow else start
      let (key, state) ←
        if marked && start.head?.any ",]\x7d:".toList.contains then some (empty, start)
        else flow? least fuel start
      let colon := state.nextInFlow
      if closes ':' colon && (marked || onOneLine start colon) then
        let behind := (colon.advance 1).nextInFlow
        if behind.head?.any ",]\x7d".toList.contains then some (key, some empty, behind)
        else do
          let (value, state) ← flow? least fuel behind
          some (key, some value, state)
      else some (key, if marked then some empty else none, state)

def flowItems? (least : Nat) : Nat → State → Option (Yaml × State)
  | 0, _ => none
  | fuel + 1, state => do
      let state := state.nextInFlow
      if closes ']' state then some (.list [], state.advance 1)
      else
        let (first, value?, state) ← flowPair? least fuel state
        let item := value?.elim first fun value => .map [(first, value)]
        let state := state.nextInFlow
        if closes ']' state then some (.list [item], state.advance 1)
        else if closes ',' state then
          match ← flowItems? least fuel (state.advance 1) with
          | (.list items, state) => some (.list (item :: items), state)
          | _ => none
        else none

def flowMembers? (least : Nat) : Nat → State → Option (Yaml × State)
  | 0, _ => none
  | fuel + 1, state => do
      let state := state.nextInFlow
      if closes '\x7d' state then some (.map [], state.advance 1)
      else
        let (key, value?, state) ← flowPair? least fuel state
        let member := (key, value?.getD empty)
        let state := state.nextInFlow
        if closes '\x7d' state then some (.map [member], state.advance 1)
        else if closes ',' state then
          match ← flowMembers? least fuel (state.advance 1) with
          | (.map members, state) => some (.map (member :: members), state)
          | _ => none
        else none

end

def key? (state : State) : Option (Yaml × State) := do
  let fuel := 2 * state.cursor.rest.length + 2
  let (given, start) ← properties? false fuel {} state
  let (node, after) ← match start.head? with
    | some '"' | some '\'' => quoted? start
    | some '*' => if given.isGiven then none else alias? start
    | some '[' | some '\x7b' => flow? 0 fuel start
    | _ =>
        if startsPlain false start.cursor.rest then do
          let text := trimRight (← plainLine? false start.cursor.rest)
          some (.scalar .plain none (String.ofList text), start.advance text.length)
        else none
  let (node, after) := given.finish node after
  let colon := after.moveTo after.cursor.skipBlanks
  if onOneLine state colon && colon.cursor.isMark ':' then some (node, colon.advance 1) else none

def leaf? (least : Nat) (state : State) : Option (Yaml × State) :=
  let block (style : Style) : Option (Yaml × State) :=
    (block? least state.cursor).map fun (text, cursor) =>
      (.scalar style none (String.ofList text), state.moveTo cursor)
  match state.head? with
  | some '|' => block .literal
  | some '>' => block .folded
  | some '"' | some '\'' => quoted? state
  | some '*' => alias? state
  | some '[' | some '\x7b' => flow? least (2 * state.cursor.rest.length + 2) state
  | _ => unquoted? false least state

mutual

def node? (least dashes : Nat) : Nat → State → Option (Yaml × State)
  | 0, _ => none
  | fuel + 1, start => do
      let state := start.next
      let column := state.cursor.column
      let dash := state.cursor.isMark '-' && state.isFresh
      if state.cursor.atEnd || (state.isFresh && column < least && !(dash && dashes ≤ column)) then
        some (empty, state)
      else if dash then items? column fuel state
      else if (state.cursor.isMark '?' && state.isFresh) || (key? state).isSome then
        if state.isFresh then members? column fuel state else none
      else if closes '&' state || closes '!' state then
        let (given, inner) ← properties? false fuel {} state
        let (node, state) ←
          if closes '*' inner then none else node? least dashes fuel inner
        some (given.finish node state)
      else leaf? least state
termination_by structural fuel => fuel

def items? (column : Nat) : Nat → State → Option (Yaml × State)
  | 0, _ => none
  | fuel + 1, state => do
      let inner := state.moveTo (state.cursor.advance 1).opened
      let (first, state) ← node? (column + 1) (column + 1) fuel inner
      let state := state.next
      let cursor := state.cursor
      if cursor.atEnd || (cursor.fresh && cursor.column < column) then some (.list [first], state)
      else if cursor.fresh && cursor.column = column then
        if cursor.isMark '-' then
          match ← items? column fuel state with
          | (.list others, state) => some (.list (first :: others), state)
          | _ => none
        else some (.list [first], state)
      else none
termination_by structural fuel => fuel

def markedKey? (column : Nat) : Nat → State → Option (Yaml × Bool × State)
  | 0, _ => none
  | fuel + 1, state => do
      let (key, after) ← node? (column + 1) column fuel (state.moveTo (state.cursor.advance 1).opened)
      let colon := after.next
      if colon.isFresh && colon.cursor.column = column && colon.cursor.isMark ':' then
        some (key, true, colon.moveTo (colon.cursor.advance 1).opened)
      else some (key, false, colon)
termination_by structural fuel => fuel

def members? (column : Nat) : Nat → State → Option (Yaml × State)
  | 0, _ => none
  | fuel + 1, state => do
      let (key, valued, state) ←
        if state.cursor.isMark '?' then markedKey? column fuel state
        else (key? state).map fun (key, state) => (key, true, state)
      let (value, state) ← if valued then node? (column + 1) column fuel state else some (empty, state)
      let state := state.next
      let cursor := state.cursor
      if cursor.atEnd || (cursor.fresh && cursor.column < column) then
        some (.map [(key, value)], state)
      else if cursor.fresh && cursor.column = column then
        match ← members? column fuel state with
        | (.map others, state) => some (.map ((key, value) :: others), state)
        | _ => none
      else none
termination_by structural fuel => fuel

end

def isDirective (line : Chars) : Bool :=
  let words := ((String.ofList line).map fun char => if char = '\t' then ' ' else char).splitOn " "
  match (words.filter (· ≠ "")).takeWhile fun word => !word.startsWith "#" with
  | ["%YAML", version] => version = "1.1" || version = "1.2"
  | ["%TAG", handle, _] => handle.startsWith "!" && handle.endsWith "!"
  | _ => false

def skipDirectives? : Nat → Bool → Cursor → Option (Bool × Cursor)
  | 0, _, _ => none
  | fuel + 1, given, cursor =>
      let next := cursor.next false
      if next.column = 0 && next.rest.head? == some '%' then
        let (line, rest) := takeLine next.rest
        if isDirective line.text then skipDirectives? fuel true { rest } else none
      else some (given, next)

def isLast : Nat → Cursor → Bool
  | 0, _ => false
  | fuel + 1, cursor =>
      let next := cursor.next false
      next.rest.isEmpty || (next.isMarker '.' && isLast fuel (next.advance 3))

def parse? (text : String) : Option Yaml := do
  let chars := unifyBreaks text.toList
  if !chars.all isPrintable then none
  else
    let fuel := 4 * chars.length + 4
    let (directed, start) ← skipDirectives? fuel false { rest := chars }
    let marked := start.isMarker '-'
    if (directed && !marked) || start.isMarker '.' then none
    else
      let (node, state) ← node? 0 0 fuel ⟨if marked then start.advance 3 else start, []⟩
      if isLast fuel state.cursor then some node else none

end Yaml

end CrawlBoard
