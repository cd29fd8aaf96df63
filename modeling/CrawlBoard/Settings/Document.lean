import CrawlBoard.Json.Record
import CrawlBoard.Json.Tree
import CrawlBoard.Report.Document
import CrawlBoard.Settings.Basic

namespace CrawlBoard.FileSettings

open Json (Reader Shape Tree Fault)
open Utf8 (Bytes)

inductive Field where
  | gcp
  | gcsBucket
  | localBucket
  | keyPrefix
  | minioEndpoint
  | indexUrl
  | timeout
  | bind
  deriving DecidableEq, Repr

namespace Field

def all : List Field :=
  [gcp, gcsBucket, localBucket, keyPrefix, minioEndpoint, indexUrl, timeout, bind]

def name : Field → String
  | gcp => "use_gcp"
  | gcsBucket => "gcs_bucket"
  | localBucket => "local_bucket"
  | keyPrefix => "prefix"
  | minioEndpoint => "minio_endpoint"
  | indexUrl => "sitemap_index"
  | timeout => "request_timeout"
  | bind => "bind"

/-- The local bucket may also be called `bucket`. -/
def ofName? (text : String) : Option Field :=
  if text = "bucket" then some localBucket else all.find? fun field => field.name = text

end Field

structure Draft where
  settings : FileSettings := {}
  given : List Field := []

def Draft.text (draft : Draft) (field : Field) (value : Option String) : Draft :=
  let settings := draft.settings
  let settings := match field with
    | .gcp | .timeout => settings
    | .gcsBucket => { settings with gcsBucket? := value }
    | .localBucket => { settings with localBucket? := value }
    | .keyPrefix => { settings with keyPrefix? := value }
    | .minioEndpoint => { settings with minioEndpoint? := value }
    | .indexUrl => { settings with indexUrl? := value }
    | .bind => { settings with bind? := value }
  ⟨settings, field :: draft.given⟩

def Draft.choice (draft : Draft) (value : Option Bool) : Draft :=
  ⟨{ draft.settings with gcp? := value }, .gcp :: draft.given⟩

def Draft.seconds (draft : Draft) (value : Option UInt64) : Draft :=
  ⟨{ draft.settings with timeout? := value }, .timeout :: draft.given⟩

def Draft.has (field : Field) (draft : Draft) : Bool := draft.given.contains field

def Draft.read (field : Field) (draft : Draft) : Reader Draft := fun rest =>
  match field with
  | .gcp => (Json.optional Json.bool rest).map fun (value, rest) => (draft.choice value, rest)
  | .timeout => (Json.optional (Json.word64 "u64") rest).map fun (value, rest) =>
      (draft.seconds value, rest)
  | field => (Json.optional Json.text rest).map fun (value, rest) => (draft.text field value, rest)

def shape : Shape Field Draft FileSettings where
  expected := "struct Config"
  fields := Field.all
  field? := Field.ofName?
  name := Field.name
  optional _ := true
  blank := {}
  has := Draft.has
  read := Draft.read
  finish draft := .ok draft.settings

def ofJson (document : Bytes) : Except Json.Failure FileSettings := Json.document shape.record document

def tree (file : FileSettings) : Tree :=
  let member {α : Type} (field : Field) (write : α → Tree) (value : Option α) :=
    value.toList.map fun a => (field.name, write a)
  .object (member .gcp .bool file.gcp?
    ++ member .gcsBucket .text file.gcsBucket?
    ++ member .localBucket .text file.localBucket?
    ++ member .keyPrefix .text file.keyPrefix?
    ++ member .minioEndpoint .text file.minioEndpoint?
    ++ member .indexUrl .text file.indexUrl?
    ++ member .timeout (fun seconds => .natural seconds.toNat) file.timeout?
    ++ member .bind .text file.bind?)

end CrawlBoard.FileSettings
