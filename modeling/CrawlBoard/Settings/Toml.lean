import CrawlBoard.Settings.Document
import CrawlBoard.Toml.Parser

namespace CrawlBoard.FileSettings

def Draft.readToml? (draft : Draft) (field : Field) (value : TomlValue) : Option Draft :=
  match field, value with
  | .gcp, .bool value => some (draft.choice (some value))
  | .timeout, .integer value =>
      if 0 ≤ value then some (draft.seconds (some (.ofNat value.toNat))) else none
  | .gcp, _ | .timeout, _ => none
  | field, .text value => some (draft.text field (some value))
  | _, _ => none

def ofToml? (members : List (String × TomlValue)) : Option FileSettings :=
  let add (draft : Draft) (member : String × TomlValue) : Option Draft :=
    match Field.ofName? member.1 with
    | none => some draft
    | some field => if draft.has field then none else draft.readToml? field member.2
  (members.foldlM add {}).map Draft.settings

end CrawlBoard.FileSettings
