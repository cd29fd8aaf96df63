import CrawlBoard.Settings.Toml
import CrawlBoard.Settings.Yaml
import CrawlBoard.Text.Search

namespace CrawlBoard

open Utf8 (Bytes)

inductive FileFormat where
  | json
  | toml
  | yaml
  deriving DecidableEq, Repr

namespace FileFormat

def extension? (name : String) : Option String :=
  match (Search.splitOn '.' name.toList).reverse with
  | [] | [_] => none
  | last :: others => if others = [[]] then none else some (String.ofList last)

/-- Any other extension, and none, means JSON. -/
def ofPath (path : String) : FileFormat :=
  let steps := (Search.splitOn '/' path.toList).filter fun step => step ≠ [] ∧ step ≠ ['.']
  match (steps.getLast?.map String.ofList).bind extension? with
  | some "toml" => toml
  | some "yaml" | some "yml" => yaml
  | _ => json

end FileFormat

inductive FileError where
  | unreadable (reason : String)
  | json (document : Bytes) (failure : Json.Failure)
  | toml
  | yaml
  deriving DecidableEq, Repr

def FileError.message : FileError → String
  | .unreadable reason => "Failed to read config file: " ++ reason
  | .json document failure => "Failed to parse JSON config: " ++ failure.message document
  | .toml => "Failed to parse TOML config"
  | .yaml => "Failed to parse YAML config"

namespace FileSettings

def ofText (format : FileFormat) (text : String) : Except FileError FileSettings :=
  match format with
  | .json => (ofJson (Utf8.encode text)).mapError (.json (Utf8.encode text))
  | .toml => ((Toml.parse? text).bind ofToml?).elim (.error .toml) .ok
  | .yaml => ((Yaml.parse? text).bind ofYaml?).elim (.error .yaml) .ok

def ofFile (path : String) (contents : Bytes) : Except FileError FileSettings :=
  match Utf8.decode? contents with
  | none => .error (.unreadable "stream did not contain valid UTF-8")
  | some text => ofText (.ofPath path) text

end FileSettings

end CrawlBoard
