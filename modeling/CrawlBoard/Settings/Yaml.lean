import CrawlBoard.Settings.Document
import CrawlBoard.Yaml.Value

namespace CrawlBoard.FileSettings

def Draft.readYaml? (draft : Draft) (field : Field) (node : Yaml) : Option Draft := do
  let node? ← node.present?
  match field with
  | .gcp => (node?.mapM Yaml.bool?).map draft.choice
  | .timeout => (node?.mapM Yaml.word64?).map draft.seconds
  | field => (node?.mapM Yaml.text?).map (draft.text field)

def readMembers? (members : List (Yaml × Yaml)) : Option Draft :=
  let add (draft : Draft) (member : Yaml × Yaml) : Option Draft := do
    match Field.ofName? (← member.1.text?) with
    | none => some draft
    | some field => if draft.has field then none else draft.readYaml? field member.2
  members.foldlM add {}

def readItems? (items : List Yaml) : Option Draft :=
  if items.length > Field.all.length then none
  else (Field.all.zip items).foldlM (fun (draft : Draft) (field, node) => draft.readYaml? field node) {}

def ofYaml? (node : Yaml) : Option FileSettings :=
  let draft := match node with
    | .map members => readMembers? members
    | .list items => readItems? items
    | .scalar .plain _ "" => some {}
    | .scalar .. => none
  draft.map Draft.settings

end CrawlBoard.FileSettings
