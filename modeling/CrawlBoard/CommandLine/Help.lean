import CrawlBoard.CommandLine.Arguments
import CrawlBoard.CommandLine.Paint

namespace CrawlBoard

def programName : String := "crawl-status"

def versionText : String := programName ++ " 0.3.0\n"

def programAbout : String := "Status dashboard for Geoconnex sitemap crawl reports"

def helpAbout : String := "Print this message or the help of the given subcommand(s)"

def Verb.about : Verb → String
  | serve => "Start the web dashboard"
  | print => "Print crawl reports to the terminal"
  | download => "Export every crawl report"
  | count => "Count reports and sitemaps in the index"

/-- Only formats are explained one by one, so only their verb has two forms of help. -/
def Verb.hasLongHelp (verb : Verb) : Bool := verb = download

def ExportFormat.about : ExportFormat → String
  | json => "Array of crawl reports"
  | linkedData => "JSON-LD document with one graph node per sitemap"

namespace Choice

def about (twoForms long : Bool) : Choice → String
  | config => "Config file path (overrides auto-discovery)"
  | verbose => "Enable verbose logging"
  | gcp => "Read reports from the public GCS bucket instead of local MinIO"
  | bucket => "Bucket to read reports from (overrides config and environment)"
  | bind => "Address to bind to: PORT, HOST, or HOST:PORT (default: 127.0.0.1:3030)"
  | page => "Page to show, starting at 1"
  | all => "Show every page"
  | format => "Output format"
  | output => "Write to a file instead of stdout"
  | help =>
      if !twoForms then "Print help"
      else if long then "Print help (see a summary with '-h')"
      else "Print help (see more with '--help')"
  | version => "Print version"

def default? : Choice → Option String
  | page => some "1"
  | format => some ExportFormat.json.name
  | _ => none

end Choice

namespace Help

def heading (text : String) : Span := ⟨[.bold, .underline], text⟩

def spaces (count : Nat) : String := "".pushn ' ' count

def usage (verb? : Option Verb) : Line :=
  let command := verb?.elim programName fun verb => programName ++ " " ++ verb.name
  [heading "Usage:", plain " ", Paint.bold.on command, plain " [OPTIONS]"]
    ++ if verb?.isNone then [plain " <COMMAND>"] else []

def names (choice : Choice) : Line :=
  (match choice.letter? with
    | some letter => [plain "  ", Paint.bold.on ("-" ++ letter.toString), plain ", "]
    | none => [plain (spaces 6)])
  ++ Paint.bold.on ("--" ++ choice.name)
    :: choice.value?.toList.map fun value => plain (" <" ++ value ++ ">")

def bracketed (choice : Choice) : String :=
  choice.default?.elim "" fun value => "[default: " ++ value ++ "]"

def formatNames : String := ", ".intercalate (ExportFormat.all.map ExportFormat.name)

def shortRow (twoForms : Bool) (width : Nat) (choice : Choice) : Line :=
  let extras := [bracketed choice,
    if choice = .format then "[possible values: " ++ formatNames ++ "]" else ""].filter (· ≠ "")
  names choice
    ++ [plain (spaces (width - choice.label.length + 2)),
      plain (" ".intercalate (choice.about twoForms false :: extras))]

def formatLines : List Line :=
  let width := (ExportFormat.all.map fun format => format.name.length).max?.getD 0
  [plain (spaces 10 ++ "Possible values:")] :: ExportFormat.all.map fun format =>
    [plain (spaces 10 ++ "- "), Paint.bold.on format.name,
      plain (":" ++ spaces (width - format.name.length + 1) ++ format.about)]

def longRow (choice : Choice) : List Line :=
  [names choice, [plain (spaces 10 ++ choice.about true true)]]
    ++ (if choice = .format then [] :: formatLines else [])
    ++ choice.default?.toList.flatMap fun _ => [[], [plain (spaces 10 ++ bracketed choice)]]

def choiceLines (verb? : Option Verb) (long : Bool) : List Line :=
  let choices := Choice.under verb?
  let twoForms := verb?.any Verb.hasLongHelp
  let width := (choices.map fun choice => choice.label.length).max?.getD 0
  [heading "Options:"]
    :: if twoForms && long then List.intercalate [[]] (choices.map longRow)
      else choices.map (shortRow twoForms width)

def verbLines : List Line :=
  let row (name about : String) : Line :=
    [plain "  ", Paint.bold.on name, plain (spaces (8 - name.length)), plain about]
  [heading "Commands:"] :: Verb.all.map (fun verb => row verb.name verb.about)
    ++ [row helpWord helpAbout]

def lines (verb? : Option Verb) (long : Bool) : List Line :=
  [[plain (verb?.elim programAbout Verb.about)], [], usage verb?, []]
    ++ (if verb?.isNone then verbLines ++ [[]] else [])
    ++ choiceLines verb? long

def linesOnHelp : List Line := [
  [plain helpAbout], [],
  [heading "Usage:", plain " ", Paint.bold.on (programName ++ " " ++ helpWord), plain " [COMMAND]..."],
  [],
  [heading "Arguments:"],
  [plain "  [COMMAND]...  Print help for the subcommand(s)"]]

end Help

namespace ArgumentError

def wrong (text : String) : Span := Paint.yellow.on text

def line (error : ArgumentError) : Line :=
  ⟨[.bold, .red], "error:"⟩ :: plain " " :: match error with
    | missingVerb =>
        [plain "'", wrong programName, plain "' requires a subcommand but one was not provided"]
    | unknownVerb word => [plain "unrecognized subcommand '", wrong word, plain "'"]
    | unknownWord word => [plain "unexpected argument '", wrong word, plain "' found"]
    | missingValue choice =>
        [plain "a value is required for '", wrong choice.label, plain "' but none was supplied"]
    | needlessValue choice value =>
        [plain "unexpected value '", wrong value, plain "' for '", Paint.bold.on choice.label,
          plain "' found; no more were expected"]
    | repeated choice =>
        [plain "the argument '", wrong choice.label, plain "' cannot be used multiple times"]
    | unknownValue choice value =>
        [plain "invalid value '", wrong value, plain "' for '", Paint.bold.on choice.label, plain "'"]
    | badNumber choice value cause =>
        [plain "invalid value '", wrong value, plain "' for '", Paint.bold.on choice.label,
          plain ("': " ++ cause.message)]

def lines (error : ArgumentError) : List Line :=
  [error.line, [],
    [plain "For more information, try '", Paint.bold.on "--help", plain "'."]]

end ArgumentError

end CrawlBoard
