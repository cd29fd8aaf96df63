import CrawlBoard.Toml.Scalar

namespace CrawlBoard.Toml

abbrev Chars := List Char

def skipBlanks (text : Chars) : Chars := text.dropWhile isBlank

def skipComment? (text : Chars) : Option Chars :=
  match text with
  | '#' :: rest =>
      let inside (char : Char) : Bool := char ≠ '\n' && char ≠ '\r'
      if (rest.takeWhile inside).any isControl then none else some (rest.dropWhile inside)
  | text => some text

def endLine? (text : Chars) : Option Chars :=
  match skipComment? (skipBlanks text) with
  | some [] => some []
  | some rest => newline? rest
  | none => none

def isBare (char : Char) : Bool := char.isAlphanum || char = '_' || char = '-'

def keyPart? (text : Chars) : Option (String × Chars) :=
  match text with
  | '"' :: rest => (basic? text.length rest).map fun (key, rest) => (String.ofList key, rest)
  | '\'' :: rest => (literal? rest).map fun (key, rest) => (String.ofList key, rest)
  | text =>
      let (key, rest) := text.span isBare
      if key = [] then none else some (String.ofList key, rest)

def key? : Nat → Chars → Option (List String × Chars)
  | 0, _ => none
  | fuel + 1, text => do
      let (part, rest) ← keyPart? (skipBlanks text)
      match skipBlanks rest with
      | '.' :: rest => (key? fuel rest).map fun (parts, rest) => (part :: parts, rest)
      | rest => some ([part], rest)

def skipLines? : Nat → Chars → Option Chars
  | 0, _ => none
  | fuel + 1, text =>
      match skipComment? (skipBlanks text) with
      | none => none
      | some rest =>
          match newline? rest with
          | some rest => skipLines? fuel rest
          | none => some rest

mutual

def Node.plain : Node → TomlValue
  | .value value => value
  | .table _ members => .table (plainMembers members)
  | .tables tables => .list (plainTables tables)

def plainMembers : List (String × Node) → List (String × TomlValue)
  | [] => []
  | (name, node) :: members => (name, node.plain) :: plainMembers members

def plainTables : List (List (String × Node)) → List TomlValue
  | [] => []
  | members :: tables => .table (plainMembers members) :: plainTables tables

end

mutual

def value? : Nat → Chars → Option (TomlValue × Chars)
  | 0, _ => none
  | fuel + 1, text =>
      match text with
      | '[' :: rest => elements? fuel rest
      | '\x7b' :: rest =>
          match skipBlanks rest with
          | '\x7d' :: rest => some (.table [], rest)
          | rest => (pairs? fuel [] rest).map fun (members, rest) => (.table (plainMembers members), rest)
      | first :: _ =>
          if first = '"' ∨ first = '\'' then
            (string? text).map fun (chars, rest) => (.text (String.ofList chars), rest)
          else
            let (word, rest) := word text
            (wordValue? word).map fun value => (value, rest)
      | [] => none

def elements? : Nat → Chars → Option (TomlValue × Chars)
  | 0, _ => none
  | fuel + 1, text => do
      match ← skipLines? text.length.succ text with
      | ']' :: rest => some (.list [], rest)
      | rest =>
          let (first, rest) ← value? fuel rest
          match ← skipLines? rest.length.succ rest with
          | ',' :: rest =>
              match ← elements? fuel rest with
              | (.list others, rest) => some (.list (first :: others), rest)
              | _ => none
          | ']' :: rest => some (.list [first], rest)
          | _ => none

def pairs? : Nat → Members → Chars → Option (Members × Chars)
  | 0, _, _ => none
  | fuel + 1, members, text => do
      let (path, rest) ← key? text.length.succ text
      match skipBlanks rest with
      | '=' :: rest =>
          let (value, rest) ← value? fuel (skipBlanks rest)
          let members ← insert? value path members
          match skipBlanks rest with
          | ',' :: rest => pairs? fuel members rest
          | '\x7d' :: rest => some (members, rest)
          | _ => none
      | _ => none

end

structure Document where
  members : Members := []
  header : List String := []

def Document.add? (document : Document) (path : List String) (value : TomlValue) :
    Option Document :=
  let add := insert? value path
  let members? := match document.header with
    | [] => add document.members
    | header => within? (extend? add) header document.members
  members?.map fun members => { document with members }

def line? (document : Document) (text : Chars) : Option (Document × Chars) :=
  let header (enter : Option Node → Option Node) (close : Chars) (rest : Chars) := do
    let (path, rest) ← key? rest.length.succ rest
    if close.isPrefixOf rest then
      let members ← within? enter path document.members
      let rest ← endLine? (rest.drop close.length)
      some (⟨members, path⟩, rest)
    else none
  match skipBlanks text with
  | '[' :: '[' :: rest => header openElement? [']', ']'] rest
  | '[' :: rest => header openTable? [']'] rest
  | rest =>
      match endLine? rest with
      | some rest => some (document, rest)
      | none => do
          let (path, rest) ← key? rest.length.succ rest
          match skipBlanks rest with
          | '=' :: rest =>
              let rest := skipBlanks rest
              let (value, rest) ← value? rest.length.succ rest
              let document ← document.add? path value
              let rest ← endLine? rest
              some (document, rest)
          | _ => none

def lines? : Nat → Document → Chars → Option Document
  | 0, _, _ => none
  | _, document, [] => some document
  | fuel + 1, document, text => (line? document text).bind fun (document, rest) =>
      lines? fuel document rest

def parse? (text : String) : Option (List (String × TomlValue)) :=
  let chars := match text.toList with
    | '\uFEFF' :: rest => rest
    | chars => chars
  (lines? chars.length.succ {} chars).map fun document => plainMembers document.members

end CrawlBoard.Toml
