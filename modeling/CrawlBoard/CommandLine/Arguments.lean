import CrawlBoard.Export.Cache
import CrawlBoard.Settings.Layer
import CrawlBoard.Text.Digits
import CrawlBoard.Text.Search
/-!
The words of the command line. They are read from left to right; the first mistake is reported.
An option's value is taken in when the next option comes or the words end.
-/

namespace CrawlBoard

inductive Verb where
  | serve
  | print
  | download
  | count
  deriving DecidableEq, Repr

namespace Verb

def all : List Verb := [serve, print, download, count]

def name : Verb → String
  | serve => "serve"
  | print => "report"
  | download => "export"
  | count => "count"

def ofName? (word : String) : Option Verb := all.find? fun verb => verb.name = word

end Verb

def helpWord : String := "help"

inductive Choice where
  | config
  | verbose
  | gcp
  | bucket
  | bind
  | page
  | all
  | format
  | output
  | help
  | version
  deriving DecidableEq, Repr

namespace Choice

def name : Choice → String
  | config => "config"
  | verbose => "verbose"
  | gcp => "gcp"
  | bucket => "bucket"
  | bind => "bind"
  | page => "page"
  | all => "all"
  | format => "format"
  | output => "output"
  | help => "help"
  | version => "version"

def letter? : Choice → Option Char
  | config => some 'c'
  | verbose => some 'v'
  | page => some 'p'
  | all => some 'a'
  | format => some 'f'
  | output => some 'o'
  | help => some 'h'
  | version => some 'V'
  | gcp | bucket | bind => none

def value? : Choice → Option String
  | config => some "CONFIG"
  | bucket => some "BUCKET"
  | bind => some "BIND"
  | page => some "PAGE"
  | format => some "FORMAT"
  | output => some "OUTPUT"
  | verbose | gcp | all | help | version => none

def label (choice : Choice) : String :=
  "--" ++ choice.name ++ choice.value?.elim "" fun value => " <" ++ value ++ ">"

def under : Option Verb → List Choice
  | none => [config, verbose, gcp, bucket, help, version]
  | some .serve => [bind, config, verbose, gcp, bucket, help]
  | some .print => [config, page, all, verbose, gcp, bucket, help]
  | some .download => [config, format, output, verbose, gcp, bucket, help]
  | some .count => [config, verbose, gcp, bucket, help]

end Choice

namespace ExportFormat

def all : List ExportFormat := [json, linkedData]

def name : ExportFormat → String
  | json => "json"
  | linkedData => "jsonld"

def ofName? (word : String) : Option ExportFormat := all.find? fun format => format.name = word

end ExportFormat

inductive ArgumentError where
  | missingVerb
  | unknownVerb (word : String)
  | unknownWord (word : String)
  | missingValue (choice : Choice)
  | needlessValue (choice : Choice) (value : String)
  | repeated (choice : Choice)
  | unknownValue (choice : Choice) (value : String)
  | badNumber (choice : Choice) (value : String) (cause : Digits.ParseError)
  deriving DecidableEq, Repr

inductive Stop where
  | help (verb? : Option Verb) (long : Bool)
  | helpOnHelp
  | version
  | idle
  | mistake (error : ArgumentError)
  deriving DecidableEq, Repr

inductive Action where
  | serve (bind? : Option String)
  | print (page : Nat) (all : Bool)
  | download (format : ExportFormat) (output? : Option String)
  | count
  deriving DecidableEq, Repr

structure Invocation where
  config? : Option String
  flags : Flags
  action : Action
  deriving DecidableEq, Repr

namespace Arguments

structure Reading where
  given : List (Choice × String) := []
  /-- A choice that waits to be taken in, and its value once that has come. -/
  pending? : Option (Choice × Option String) := none
  closed : Bool := false

def mistake {α : Type} (error : ArgumentError) : Except Stop α := .error (.mistake error)

def parsePage (value : String) : Except Digits.ParseError Nat := Digits.parse 0xFFFFFFFFFFFFFFFF value

def checkValue (choice : Choice) (value : String) : Except Stop Unit :=
  match choice with
  | .config | .output => if value.isEmpty then mistake (.missingValue choice) else .ok ()
  | .format =>
      if (ExportFormat.ofName? value).isSome then .ok ()
      else if value.isEmpty then mistake (.missingValue choice)
      else mistake (.unknownValue choice value)
  | .page =>
      match parsePage value with
      | .ok _ => .ok ()
      | .error cause => mistake (.badNumber choice value cause)
  | _ => .ok ()

namespace Reading

def add (reading : Reading) (choice : Choice) (value : String) : Except Stop Reading := do
  if reading.given.any fun (other, _) => other = choice then mistake (.repeated choice)
  checkValue choice value
  .ok { reading with given := reading.given ++ [(choice, value)] }

def settle (reading : Reading) : Except Stop Reading :=
  match reading.pending? with
  | none => .ok reading
  | some (choice, none) => mistake (.missingValue choice)
  | some (choice, some value) => { reading with pending? := none }.add choice value

def awaitsValue (reading : Reading) : Bool := reading.pending?.any fun (_, value?) => value?.isNone

def choose (verb? : Option Verb) (long : Bool) (choice : Choice) (value? : Option String)
    (reading : Reading) : Except Stop Reading := do
  let reading ← reading.settle
  match choice, value? with
  | .help, _ => .error (.help verb? long)
  | .version, _ => .error .version
  | choice, some value => reading.add choice value
  | choice, none =>
      if choice.value?.isSome then .ok { reading with pending? := some (choice, none) }
      else reading.add choice ""

def longWord (verb? : Option Verb) (word : List Char) (reading : Reading) : Except Stop Reading :=
  let (name, value?) := match Search.cut? ['='] word with
    | some (name, value) => (String.ofList name, some (String.ofList value))
    | none => (String.ofList word, none)
  match (Choice.under verb?).find? fun choice => choice.name = name with
  | none => mistake (.unknownWord ("--" ++ name))
  | some choice =>
      match choice.value?, value? with
      | none, some value => mistake (.needlessValue choice value)
      | _, value? => reading.choose verb? true choice value?

/-- Letters behind one hyphen. What follows a letter with a value is that value. -/
def letters (verb? : Option Verb) : List Char → Reading → Except Stop Reading
  | [], reading => .ok reading
  | letter :: rest, reading =>
      match (Choice.under verb?).find? fun choice => choice.letter? = some letter with
      | none => mistake (.unknownWord ("-" ++ letter.toString))
      | some choice =>
          if choice.value?.isSome then
            let value? := match rest with
              | [] => none
              | '=' :: value => some value
              | value => some value
            reading.choose verb? false choice (value?.map String.ofList)
          else do letters verb? rest (← reading.choose verb? false choice none)

def isVerb (word : String) : Bool := word = helpWord || (Verb.ofName? word).isSome

def stray (verb? : Option Verb) (word : String) (reading : Reading) : ArgumentError :=
  if verb?.isNone && !(reading.closed && isVerb word) then .unknownVerb word else .unknownWord word

def word (verb? : Option Verb) (reading : Reading) (word : String) : Except Stop Reading :=
  if reading.closed then mistake (reading.stray verb? word)
  else match word.toList, reading.pending? with
    | ['-', '-'], _ => .ok { reading with closed := true }
    | '-' :: '-' :: rest, _ => reading.longWord verb? rest
    | '-' :: letter :: rest, _ => reading.letters verb? (letter :: rest)
    | _, some (choice, none) => .ok { reading with pending? := some (choice, some word) }
    | _, _ => mistake (reading.stray verb? word)

end Reading

def readToVerb : List String → Reading → Except Stop (Reading × Option (String × List String))
  | [], reading => .ok (reading, none)
  | word :: rest, reading =>
      if Reading.isVerb word && !reading.closed && !reading.awaitsValue then
        .ok (reading, some (word, rest))
      else do readToVerb rest (← reading.word none word)

def helpOn : List String → Stop
  | [] => .help none true
  | word :: rest =>
      if word ≠ helpWord ∧ (Verb.ofName? word).isNone then .mistake (.unknownVerb word)
      else match rest with
        | next :: _ => .mistake (.unknownVerb next)
        | [] => (Verb.ofName? word).elim .helpOnHelp fun verb => .help (some verb) true

/-- What was given behind the verb goes over what was given before it. -/
def build (verb : Verb) (outer inner : List (Choice × String)) : Invocation :=
  let value? (choice : Choice) : Option String := inner.lookup choice <|> outer.lookup choice
  { config? := value? .config
    flags := ⟨(value? .gcp).isSome, value? .bucket⟩
    action := match verb with
      | .serve => .serve (value? .bind)
      | .print =>
          .print (((value? .page).bind fun text => (parsePage text).toOption).getD 1) (value? .all).isSome
      | .download =>
          .download (((value? .format).bind ExportFormat.ofName?).getD .json) (value? .output)
      | .count => .count }

def parse (words : List String) : Except Stop Invocation := do
  let (outer, verb?) ← readToVerb words {}
  match verb? with
  | none =>
      let outer ← outer.settle
      if outer.given.isEmpty then .error .idle else mistake .missingVerb
  | some (word, rest) =>
      match Verb.ofName? word with
      | none => .error (helpOn rest)
      | some verb =>
          let inner ← (← rest.foldlM (Reading.word (some verb)) {}).settle
          let outer ← outer.settle
          .ok (build verb outer.given inner.given)

end Arguments

end CrawlBoard
