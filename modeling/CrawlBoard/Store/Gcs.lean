import CrawlBoard.Json.Record
import CrawlBoard.Store.Basic
import CrawlBoard.Time.Rfc3339

namespace CrawlBoard

open Json (Reader Shape Fault)
open Utf8 (Bytes)

structure GcsStore where
  base : String
  bucket : String
  deriving DecidableEq, Repr

namespace GcsStore

def withoutTrailingSlashes (text : String) : String :=
  String.ofList (Search.dropTrailing (· = '/') text.toList)

def ofBase (base bucket : String) : GcsStore := ⟨withoutTrailingSlashes base, bucket⟩

def location (store : GcsStore) : String := store.base ++ "/" ++ store.bucket

def listParams (query : ListQuery) : List (String × String) :=
  [("prefix", query.keyPrefix), ("maxResults", toString query.limit)]
    ++ query.token?.toList.map fun token => ("pageToken", token)

def listUrl (store : GcsStore) (query : ListQuery) : String :=
  store.base ++ "/storage/v1/b/" ++ Percent.encode store.bucket ++ "/o?"
    ++ "&".intercalate ((listParams query).map fun (name, value) => name ++ "=" ++ Percent.encode value)

def objectUrl (store : GcsStore) (key : String) : String :=
  store.base ++ "/" ++ Percent.encode store.bucket ++ "/" ++ Percent.encodePath key

namespace EntryForm

inductive Field where
  | name
  | updated
  deriving DecidableEq, Repr

structure Draft where
  name : Option String := none
  updated : Option (Option String) := none

def Field.text : Field → String
  | name => "name"
  | updated => "updated"

def Draft.has (field : Field) (draft : Draft) : Bool :=
  match field with
  | .name => draft.name.isSome
  | .updated => draft.updated.isSome

def Draft.read (field : Field) (draft : Draft) : Reader Draft := fun rest =>
  match field with
  | .name => (Json.text rest).map fun (name, rest) => ({ draft with name := some name }, rest)
  | .updated => (Json.optional Json.text rest).map fun (stamp, rest) =>
      ({ draft with updated := some stamp }, rest)

/-- A time that cannot be read counts as none. -/
def Draft.finish (draft : Draft) : Except Fault ObjectEntry :=
  match draft.name with
  | none => .error (.missingField Field.name.text)
  | some name => .ok ⟨name, (draft.updated.getD none).bind Rfc3339.parse?⟩

def shape : Shape Field Draft ObjectEntry where
  expected := "struct ListItem"
  fields := [.name, .updated]
  field? text := [Field.name, Field.updated].find? fun field => field.text = text
  name := Field.text
  optional _ := false
  blank := {}
  has := Draft.has
  read := Draft.read
  finish := Draft.finish

end EntryForm

namespace PageForm

inductive Field where
  | items
  | next
  deriving DecidableEq, Repr

structure Draft where
  items : Option (List ObjectEntry) := none
  next : Option (Option String) := none

def Field.text : Field → String
  | items => "items"
  | next => "nextPageToken"

def Draft.has (field : Field) (draft : Draft) : Bool :=
  match field with
  | .items => draft.items.isSome
  | .next => draft.next.isSome

def Draft.read (field : Field) (draft : Draft) : Reader Draft := fun rest =>
  match field with
  | .items => (Json.list EntryForm.shape.record rest).map fun (items, rest) =>
      ({ draft with items := some items }, rest)
  | .next => (Json.optional Json.text rest).map fun (token, rest) =>
      ({ draft with next := some token }, rest)

def Draft.finish (draft : Draft) : Except Fault ObjectPage :=
  .ok ⟨draft.items.getD [], (draft.next.getD none).filter fun token => !token.isEmpty⟩

def shape : Shape Field Draft ObjectPage where
  expected := "struct ListResponse"
  fields := [.items, .next]
  field? text := [Field.items, Field.next].find? fun field => field.text = text
  name := Field.text
  optional field := field = .items
  blank := {}
  has := Draft.has
  read := Draft.read
  finish := Draft.finish

end PageForm

def parsePage (text : String) : Except StoreError ObjectPage :=
  let document := Utf8.encode text
  (Json.document PageForm.shape.record document).mapError fun failure =>
    .invalidListing (failure.message document)

def list [DomainNames] (network : Web.Network) (store : GcsStore) (query : ListQuery) :
    Except StoreError ObjectPage := do
  let url := store.listUrl query
  let response ← request network url []
  parsePage (← bodyText url response)

def fetch [DomainNames] (network : Web.Network) (store : GcsStore) (key : String) :
    Except StoreError StoredObject := do
  let url := store.objectUrl key
  let response ← request network url []
  return ⟨← bodyBytes url response, none⟩

end GcsStore

end CrawlBoard
