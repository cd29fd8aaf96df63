import CrawlBoard.Json.Record
import CrawlBoard.Json.Tree
import CrawlBoard.Report.Basic

namespace CrawlBoard

open Json (Reader Shape Tree Fault)
open Utf8 (Bytes)

namespace Json

def word16 : Reader UInt16 := fun rest => do
  let (n, rest) ← natural 0xFFFF "u16" rest
  .ok (UInt16.ofNat n, rest)

def word64 (kind : String) : Reader UInt64 := fun rest => do
  let (n, rest) ← natural maxWord kind rest
  .ok (UInt64.ofNat n, rest)

def listOrNull {α : Type} (read : Reader α) : Reader (List α) := fun rest => do
  let (items, rest) ← optional (list read) rest
  .ok (items.getD [], rest)

end Json

def ShaclStatus.reader : Reader ShaclStatus := Json.variant ShaclStatus.named

namespace UrlFailure

inductive Field where
  | url
  | status
  | message
  | shacl
  | shaclMessage
  deriving DecidableEq, Repr

structure Draft where
  url : Option String := none
  status : Option UInt16 := none
  message : Option String := none
  shacl : Option ShaclStatus := none
  shaclMessage : Option String := none

def Field.name : Field → String
  | url => "Url"
  | status => "Status"
  | message => "Message"
  | shacl => "ShaclStatus"
  | shaclMessage => "ShaclErrorMessage"

def Field.ofName? : String → Option Field
  | "Url" | "url" => some .url
  | "Status" | "statusCode" => some .status
  | "Message" | "description" => some .message
  | "ShaclStatus" | "shaclStatus" => some .shacl
  | "ShaclErrorMessage" | "shaclMessage" => some .shaclMessage
  | _ => none

def Draft.has (field : Field) (draft : Draft) : Bool :=
  match field with
  | .url => draft.url.isSome
  | .status => draft.status.isSome
  | .message => draft.message.isSome
  | .shacl => draft.shacl.isSome
  | .shaclMessage => draft.shaclMessage.isSome

def Draft.read (field : Field) (draft : Draft) : Reader Draft := fun rest =>
  match field with
  | .url => (Json.text rest).map fun (url, rest) => ({ draft with url := some url }, rest)
  | .status => (Json.word16 rest).map fun (status, rest) => ({ draft with status := some status }, rest)
  | .message => (Json.text rest).map fun (text, rest) => ({ draft with message := some text }, rest)
  | .shacl => (ShaclStatus.reader rest).map fun (shacl, rest) => ({ draft with shacl := some shacl }, rest)
  | .shaclMessage => (Json.text rest).map fun (text, rest) => ({ draft with shaclMessage := some text }, rest)

def Draft.finish (draft : Draft) : Except Fault UrlFailure :=
  match draft.url with
  | none => .error (.missingField Field.url.name)
  | some url => .ok ⟨url, draft.status.getD 0, draft.message.getD "",
      draft.shacl.getD .skipped, draft.shaclMessage.getD ""⟩

def shape : Shape Field Draft UrlFailure where
  expected := "struct UrlCrawlError"
  fields := [.url, .status, .message, .shacl, .shaclMessage]
  field? := Field.ofName?
  name := Field.name
  optional field := field ≠ .url
  blank := {}
  has := Draft.has
  read := Draft.read
  finish := Draft.finish

def tree (failure : UrlFailure) : Tree := .object [
  (Field.url.name, .text failure.url),
  (Field.status.name, .natural failure.status.toNat),
  (Field.message.name, .text failure.message),
  (Field.shacl.name, .text failure.shacl.name),
  (Field.shaclMessage.name, .text failure.shaclMessage)]

end UrlFailure

namespace ShaclWarning

inductive Field where
  | url
  | shacl
  | message
  deriving DecidableEq, Repr

structure Draft where
  url : Option String := none
  shacl : Option ShaclStatus := none
  message : Option String := none

def Field.name : Field → String
  | url => "Url"
  | shacl => "ShaclStatus"
  | message => "ShaclValidationMessage"

def Field.ofName? : String → Option Field
  | "Url" | "url" => some .url
  | "ShaclStatus" | "shaclStatus" => some .shacl
  | "ShaclValidationMessage" | "shaclValidationMessage" => some .message
  | _ => none

def Draft.has (field : Field) (draft : Draft) : Bool :=
  match field with
  | .url => draft.url.isSome
  | .shacl => draft.shacl.isSome
  | .message => draft.message.isSome

def Draft.read (field : Field) (draft : Draft) : Reader Draft := fun rest =>
  match field with
  | .url => (Json.text rest).map fun (url, rest) => ({ draft with url := some url }, rest)
  | .shacl => (ShaclStatus.reader rest).map fun (shacl, rest) => ({ draft with shacl := some shacl }, rest)
  | .message => (Json.text rest).map fun (text, rest) => ({ draft with message := some text }, rest)

def Draft.finish (draft : Draft) : Except Fault ShaclWarning :=
  match draft.url with
  | none => .error (.missingField Field.url.name)
  | some url => .ok ⟨url, draft.shacl.getD .skipped, draft.message.getD ""⟩

def shape : Shape Field Draft ShaclWarning where
  expected := "struct ShaclInfo"
  fields := [.url, .shacl, .message]
  field? := Field.ofName?
  name := Field.name
  optional field := field ≠ .url
  blank := {}
  has := Draft.has
  read := Draft.read
  finish := Draft.finish

def tree (warning : ShaclWarning) : Tree := .object [
  (Field.url.name, .text warning.url),
  (Field.shacl.name, .text warning.shacl.name),
  (Field.message.name, .text warning.message)]

end ShaclWarning

namespace WarningSummary

inductive Field where
  | total
  | sample
  deriving DecidableEq, Repr

structure Draft where
  total : Option UInt64 := none
  sample : Option (List ShaclWarning) := none

def Field.name : Field → String
  | total => "TotalShaclFailures"
  | sample => "ShaclWarnings"

def Field.ofName? : String → Option Field
  | "TotalShaclFailures" | "totalShaclFailures" => some .total
  | "ShaclWarnings" | "shaclWarnings" => some .sample
  | _ => none

def Draft.has (field : Field) (draft : Draft) : Bool :=
  match field with
  | .total => draft.total.isSome
  | .sample => draft.sample.isSome

def Draft.read (field : Field) (draft : Draft) : Reader Draft := fun rest =>
  match field with
  | .total => (Json.word64 "usize" rest).map fun (total, rest) => ({ draft with total := some total }, rest)
  | .sample => (Json.listOrNull ShaclWarning.shape.record rest).map fun (sample, rest) =>
      ({ draft with sample := some sample }, rest)

def Draft.finish (draft : Draft) : Except Fault WarningSummary :=
  .ok ⟨draft.total.getD 0, draft.sample.getD []⟩

def shape : Shape Field Draft WarningSummary where
  expected := "struct WarningReport"
  fields := [.total, .sample]
  field? := Field.ofName?
  name := Field.name
  optional _ := true
  blank := {}
  has := Draft.has
  read := Draft.read
  finish := Draft.finish

def tree (summary : WarningSummary) : Tree := .object [
  (Field.total.name, .natural summary.total.toNat),
  (Field.sample.name, .list (summary.sample.map ShaclWarning.tree))]

end WarningSummary

namespace Report

inductive Field where
  | sitemap
  | harvestedUrls
  | failures
  | seconds
  | sitesHarvested
  | sitesListed
  | warnings
  | sourceLink
  | lastModified
  deriving DecidableEq, Repr

/-- A field that may be `null` has been given as soon as its outer option holds something. -/
structure Draft where
  sitemap : Option String := none
  harvestedUrls : Option (List String) := none
  failures : Option (Option (List UrlFailure)) := none
  seconds : Option Float := none
  sitesHarvested : Option UInt64 := none
  sitesListed : Option UInt64 := none
  warnings : Option (Option WarningSummary) := none
  sourceLink : Option (Option String) := none
  lastModified : Option (Option String) := none

def Field.name : Field → String
  | sitemap => "SitemapName"
  | harvestedUrls => "SuccessfulUrls"
  | failures => "CrawlFailures"
  | seconds => "SecondsToComplete"
  | sitesHarvested => "SitesHarvested"
  | sitesListed => "SitesInSitemap"
  | warnings => "WarningStats"
  | sourceLink => "SitemapSourceLink"
  | lastModified => "LastModified"

def Field.ofName? : String → Option Field
  | "SitemapName" | "name" => some .sitemap
  | "SuccessfulUrls" | "successfulUrls" => some .harvestedUrls
  | "CrawlFailures" | "crawlFailures" => some .failures
  | "SecondsToComplete" | "duration" => some .seconds
  | "SitesHarvested" | "numberOfSitesHarvested" | "SuccessfulSites" => some .sitesHarvested
  | "SitesInSitemap" | "numberOfSitesInSitemap" => some .sitesListed
  | "WarningStats" | "warningStats" => some .warnings
  | "SitemapSourceLink" | "sitemapSourceLink" => some .sourceLink
  | "LastModified" => some .lastModified
  | _ => none

def Draft.has (field : Field) (draft : Draft) : Bool :=
  match field with
  | .sitemap => draft.sitemap.isSome
  | .harvestedUrls => draft.harvestedUrls.isSome
  | .failures => draft.failures.isSome
  | .seconds => draft.seconds.isSome
  | .sitesHarvested => draft.sitesHarvested.isSome
  | .sitesListed => draft.sitesListed.isSome
  | .warnings => draft.warnings.isSome
  | .sourceLink => draft.sourceLink.isSome
  | .lastModified => draft.lastModified.isSome

def Draft.read (field : Field) (draft : Draft) : Reader Draft := fun rest =>
  match field with
  | .sitemap => (Json.text rest).map fun (name, rest) => ({ draft with sitemap := some name }, rest)
  | .harvestedUrls => (Json.listOrNull Json.text rest).map fun (urls, rest) =>
      ({ draft with harvestedUrls := some urls }, rest)
  | .failures => (Json.optional (Json.list UrlFailure.shape.record) rest).map fun (failures, rest) =>
      ({ draft with failures := some failures }, rest)
  | .seconds => (Json.float rest).map fun (seconds, rest) => ({ draft with seconds := some seconds }, rest)
  | .sitesHarvested => (Json.word64 "u64" rest).map fun (count, rest) =>
      ({ draft with sitesHarvested := some count }, rest)
  | .sitesListed => (Json.word64 "u64" rest).map fun (count, rest) =>
      ({ draft with sitesListed := some count }, rest)
  | .warnings => (Json.optional WarningSummary.shape.record rest).map fun (warnings, rest) =>
      ({ draft with warnings := some warnings }, rest)
  | .sourceLink => (Json.optional Json.text rest).map fun (link, rest) =>
      ({ draft with sourceLink := some link }, rest)
  | .lastModified => (Json.optional Json.text rest).map fun (stamp, rest) =>
      ({ draft with lastModified := some stamp }, rest)

def Draft.finish (draft : Draft) : Except Fault Report :=
  match draft.sitemap with
  | none => .error (.missingField Field.sitemap.name)
  | some sitemap => .ok {
      sitemap
      harvestedUrls := draft.harvestedUrls.getD []
      failures? := draft.failures.getD none
      seconds := draft.seconds.getD 0.0
      sitesHarvested := draft.sitesHarvested.getD 0
      sitesListed := draft.sitesListed.getD 0
      warnings? := draft.warnings.getD none
      sourceLink? := draft.sourceLink.getD none
      lastModified? := draft.lastModified.getD none }

def shape : Shape Field Draft Report where
  expected := "struct SitemapCrawlStats"
  fields := [.sitemap, .harvestedUrls, .failures, .seconds, .sitesHarvested, .sitesListed,
    .warnings, .sourceLink, .lastModified]
  field? := Field.ofName?
  name := Field.name
  optional field := field ≠ .sitemap
  blank := {}
  has := Draft.has
  read := Draft.read
  finish := Draft.finish

def parse (document : Bytes) : Except Json.Failure Report := Json.document shape.record document

def member {α : Type} (field : Field) (write : α → Tree) (value : Option α) : List (String × Tree) :=
  value.toList.map fun a => (field.name, write a)

def members (report : Report) : List (String × Tree) :=
  [(Field.sitemap.name, .text report.sitemap),
    (Field.harvestedUrls.name, .list (report.harvestedUrls.map .text))]
  ++ member .failures (fun failures => .list (failures.map UrlFailure.tree)) report.failures?
  ++ [(Field.seconds.name, .real report.seconds),
    (Field.sitesHarvested.name, .natural report.sitesHarvested.toNat),
    (Field.sitesListed.name, .natural report.sitesListed.toNat)]
  ++ member .warnings WarningSummary.tree report.warnings?
  ++ member .sourceLink .text report.sourceLink?
  ++ member .lastModified .text report.lastModified?

def tree (report : Report) : Tree := .object report.members

def text (report : Report) : String := report.tree.compact

def listTree (reports : List Report) : Tree := .list (reports.map tree)

end Report

end CrawlBoard
