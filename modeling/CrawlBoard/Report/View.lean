import CrawlBoard.Report.Basic
import CrawlBoard.Text.Real

namespace CrawlBoard

structure FailureRow where
  url : String
  status : String
  message : String
  shacl : String
  shaclMessage : String
  deriving DecidableEq, Repr

structure WarningRow where
  url : String
  shacl : String
  message : String
  deriving DecidableEq, Repr

structure WarningView where
  total : Nat
  note : String
  rows : List WarningRow
  deriving DecidableEq, Repr

structure ReportView where
  name : String
  lastModified : String
  sitesHarvested : Nat
  sitesListed : Nat
  duration : String
  sourceLink? : Option String
  urls : List String
  failures : List FailureRow
  warnings? : Option WarningView
  deriving DecidableEq, Repr

def UrlFailure.row (failure : UrlFailure) : FailureRow :=
  ⟨failure.url, failure.statusText, failure.message, failure.shacl.name, failure.shaclMessage⟩

def ShaclWarning.row (warning : ShaclWarning) : WarningRow :=
  ⟨warning.url, warning.shacl.name, warning.message⟩

def WarningSummary.view (summary : WarningSummary) : WarningView :=
  ⟨summary.total.toNat, summary.note, summary.sample.map ShaclWarning.row⟩

def Report.durationText (report : Report) : String := Real.fixedText report.seconds ++ "s"

/-- An empty source link is not shown. -/
def Report.view (report : Report) : ReportView where
  name := report.sitemap
  lastModified := report.lastModifiedDate
  sitesHarvested := report.sitesHarvested.toNat
  sitesListed := report.sitesListed.toNat
  duration := report.durationText
  sourceLink? := report.sourceLink?.filter fun link => !link.isEmpty
  urls := report.harvestedUrls
  failures := report.failures.map UrlFailure.row
  warnings? := report.shownWarnings?.map WarningSummary.view

end CrawlBoard
