import CrawlBoard.Settings.Layer
import CrawlBoard.Text.Utf8
/-!
Files of variables. Each statement gives one variable; text in quotes may go over several lines.
At the first statement that is ill-formed reading ends.
-/

namespace CrawlBoard.Dotenv

open Utf8 (Bytes)

abbrev Chars := List Char

inductive Scan where
  | plain
  | blank
  | escape
  | single
  | singleEscape
  | double
  | doubleEscape
  deriving DecidableEq, Repr

def Scan.step? : Scan → Char → Option Scan
  | plain, char =>
      if Blank.isBlank char && char ≠ '\n' && char ≠ '\r' then some blank
      else some (opening char)
  | blank, char => if char = '#' then none else some (opening char)
  | escape, _ => some plain
  | single, char => some (if char = '\\' then singleEscape else if char = '\'' then plain else single)
  | singleEscape, _ => some single
  | double, char => some (if char = '\\' then doubleEscape else if char = '"' then plain else double)
  | doubleEscape, _ => some double
where
  opening (char : Char) : Scan :=
    if char = '\\' then escape else if char = '"' then double else if char = '\'' then single else plain

def scanLine (scan : Scan) : Chars → Chars × Option Scan
  | [] => ([], some scan)
  | char :: rest =>
      match scan.step? char with
      | none => ([], none)
      | some next =>
          let (kept, scan?) := scanLine next rest
          (char :: kept, scan?)

def dropLineEnd (line : Chars) : Chars :=
  match line.reverse with
  | '\n' :: '\r' :: rest => rest.reverse
  | '\n' :: rest => rest.reverse
  | _ => line

/-- The statements of a file; nothing stands for one that is never closed. -/
def statements (before : Chars) (scan : Scan) : List Chars → List (Option Chars)
  | [] => if scan = .plain then [] else [none]
  | line :: lines =>
      if (Blank.trimLeft (before ++ line)).head? = some '#' then
        some [] :: statements [] .plain lines
      else match scanLine scan line with
        | (kept, none) => some (before ++ kept) :: statements [] .plain lines
        | (kept, some .plain) => some (dropLineEnd (before ++ kept)) :: statements [] .plain lines
        | (kept, some scan) => statements (before ++ kept) scan lines

inductive Mode where
  | plain
  | single
  | double
  | name (quoted : Bool) (text : Chars)
  | braced (quoted : Bool) (text : Chars)
  | ended

def outside (quoted : Bool) : Mode := if quoted then .double else .plain

def substitute (environment : Environment) (name : Chars) : Chars :=
  ((environment (String.ofList name)).getD "").toList

def escaped? (char : Char) : Option Char :=
  if "\\'\"$ ".toList.contains char then some char
  else if char = 'n' then some '\n'
  else none

def value? (environment : Environment) : Mode → Chars → Option Chars
  | mode, [] =>
      match mode with
      | .plain | .ended => some []
      | .name false name => some (substitute environment name)
      | .name true _ | .single | .double | .braced .. => none
  | .ended, char :: rest =>
      if char = ' ' || char = '\t' then value? environment .ended rest
      else if char = '#' then some []
      else none
  | .single, char :: rest =>
      if char = '\'' then value? environment .plain rest
      else (value? environment .single rest).map (char :: ·)
  | .name quoted name, char :: rest =>
      if char.isAlphanum then value? environment (.name quoted (name ++ [char])) rest
      else if char = '\x7b' ∧ name = [] then value? environment (.braced quoted []) rest
      else
        let replaced := substitute environment name
        if char = '$' then (value? environment (.name quoted []) rest).map (replaced ++ ·)
        else (value? environment (outside quoted) rest).map (replaced ++ char :: ·)
  | .braced quoted name, char :: rest =>
      if char = '\x7d' then
        (value? environment (outside quoted) rest).map (substitute environment name ++ ·)
      else value? environment (.braced quoted (name ++ [char])) rest
  | .plain, ['\\'] => some []
  | .double, ['\\'] => none
  | .double, '\\' :: char :: rest => do
      (value? environment .double rest).map ((← escaped? char) :: ·)
  | .plain, '\\' :: char :: rest => do
      (value? environment .plain rest).map ((← escaped? char) :: ·)
  | .double, char :: rest =>
      if char = '$' then value? environment (.name true []) rest
      else if char = '"' then value? environment .plain rest
      else (value? environment .double rest).map (char :: ·)
  | .plain, char :: rest =>
      if char = '$' then value? environment (.name false []) rest
      else if char = '\'' then value? environment .single rest
      else if char = '"' then value? environment .double rest
      else if char = ' ' || char = '\t' then value? environment .ended rest
      else (value? environment .plain rest).map (char :: ·)

def name? (text : Chars) : Option (Chars × Chars) :=
  let inName (char : Char) : Bool := char.isAlphanum || char = '_' || char = '.'
  match text with
  | [] => none
  | first :: _ =>
      if first.isAlpha || first = '_' then
        some (text.takeWhile inName, Blank.trimLeft (text.dropWhile inName))
      else none

def expectEqual? : Chars → Option Chars
  | '=' :: rest => some rest
  | _ => none

def statement? (environment : Environment) (text : Chars) : Option (Option (String × String)) :=
  match Blank.trimLeft (Blank.trimRight text) with
  | [] | '#' :: _ => some none
  | line => do
      let (name, rest) ← name? line
      let (name, rest) ← match expectEqual? rest with
        | some rest => some (name, rest)
        | none =>
            if name = "export".toList then do
              let (name, rest) ← name? rest
              some (name, ← expectEqual? rest)
            else none
      let text := Blank.trimLeft rest
      let value ← if text.head?.all (· = '#') then some [] else value? environment .plain text
      some (some (String.ofList name, String.ofList value))

/-- Variables that are set already keep their values. -/
def apply (environment : Environment) : List (Option Chars) → Environment
  | [] | none :: _ => environment
  | some text :: statements =>
      match statement? environment text with
      | none => environment
      | some none => apply environment statements
      | some (some (name, value)) =>
          let extended := if (environment name).isSome then environment
            else fun other => if other = name then some value else environment other
          apply extended statements

/-- Lines with their ends, up to the first one that is not text. -/
def textLines (contents : Bytes) : List Chars :=
  let pieces := Search.splitOn 0x0A contents
  let ended := pieces.dropLast.map (· ++ [0x0A])
  let lines := (ended ++ pieces.getLast?.toList.filter (· ≠ [])).map fun line => (Utf8.decode? line).map String.toList
  (lines.takeWhile Option.isSome).filterMap id

def extend (environment : Environment) (contents : Bytes) : Environment :=
  let lines := match textLines contents with
    | ('\uFEFF' :: first) :: lines => first :: lines
    | lines => lines
  apply environment (statements [] .plain lines)

end CrawlBoard.Dotenv
