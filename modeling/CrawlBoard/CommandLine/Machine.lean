import CrawlBoard.CommandLine.BindAddress
import CrawlBoard.CommandLine.Dotenv
import CrawlBoard.CommandLine.Paint
import CrawlBoard.Settings.File
import CrawlBoard.Store.Basic
/-!
What the program finds around it: variables, files, the network and the clock. Reading them is a
function, so that a run of the program is one too.
-/

namespace CrawlBoard

open Utf8 (Bytes)

structure Machine where
  environment : Environment
  contentsOf : String → Except String Bytes
  refusesFile : String → Option String
  network : Web.Network
  now : Instant
  refusesAddress : SocketAddress → Option String
  /-- Number of steps after which work that does not end is given up. -/
  patience : Nat

namespace Machine

def variablesPath : String := ".env"

def withVariables (machine : Machine) : Machine :=
  match machine.contentsOf variablesPath with
  | .ok contents => { machine with environment := Dotenv.extend machine.environment contents }
  | .error _ => machine

def folders (environment : Environment) : List String :=
  let home := (environment "HOME").bind filled?
  let config := (environment "XDG_CONFIG_HOME").bind filled? <|> home.map (· ++ "/.config")
  "." :: config.toList ++ home.toList

def fileNames : List String :=
  ["json", "json5", "yaml", "yml", "toml"].map fun extension => "crawl-status." ++ extension

def candidates (environment : Environment) : List String :=
  (folders environment).flatMap fun folder => fileNames.map fun name => folder ++ "/" ++ name

/-- The settings of the first file that is there; one that cannot be understood counts for
nothing. -/
def discover (machine : Machine) : FileSettings :=
  let found? := (candidates machine.environment).findSome? fun path =>
    ((machine.contentsOf path).toOption).map fun contents => FileSettings.ofFile path contents
  (found?.bind Except.toOption).getD {}

def readSettings (machine : Machine) (path : String) : Except FileError FileSettings :=
  match machine.contentsOf path with
  | .ok contents => FileSettings.ofFile path contents
  | .error reason => .error (.unreadable reason)

def settings (machine : Machine) (path? : Option String) (flags : Flags) : Except String Settings := do
  let file ← match path? with
    | none => .ok machine.discover
    | some path => (machine.readSettings path).mapError fun error => path ++ ": " ++ error.message
  .ok ((({} : Settings).withFile file).withEnvironment machine.environment |>.withFlags flags)

end Machine

end CrawlBoard
