
namespace CrawlBoard

inductive ShaclStatus where
  | skipped
  | invalid
  | valid
  deriving DecidableEq, Repr

namespace ShaclStatus

def name : ShaclStatus → String
  | .skipped => "skipped"
  | .invalid => "invalid"
  | .valid => "valid"

def named : List (String × ShaclStatus) :=
  [skipped, invalid, valid].map fun status => (status.name, status)

structure Unknown where
  text : String
  deriving DecidableEq, Repr

def Unknown.message (unknown : Unknown) : String :=
  "Invalid SHACL status '" ++ unknown.text ++ "'. Valid options: skipped, invalid, valid"

def parse (text : String) : Except Unknown ShaclStatus :=
  match named.lookup text with
  | some status => .ok status
  | none => .error ⟨text⟩

end ShaclStatus

/-- A URL that was not harvested. Status 0 means that no response came. -/
structure UrlFailure where
  url : String
  status : UInt16
  message : String
  shacl : ShaclStatus
  shaclMessage : String
  deriving DecidableEq, Repr

structure ShaclWarning where
  url : String
  shacl : ShaclStatus
  message : String
  deriving DecidableEq, Repr

/-- `sample` holds the first warnings only, `total` counts them all. -/
structure WarningSummary where
  total : UInt64
  sample : List ShaclWarning
  deriving DecidableEq, Repr

structure Report where
  sitemap : String
  harvestedUrls : List String
  failures? : Option (List UrlFailure)
  seconds : Float
  sitesHarvested : UInt64
  sitesListed : UInt64
  warnings? : Option WarningSummary
  sourceLink? : Option String
  lastModified? : Option String
  deriving DecidableEq, Repr

namespace UrlFailure

def statusText (failure : UrlFailure) : String :=
  if failure.status = 0 then "" else toString failure.status.toNat

end UrlFailure

namespace WarningSummary

def truncated (summary : WarningSummary) : Bool := summary.sample.length < summary.total.toNat

def note (summary : WarningSummary) : String :=
  "Displaying the first " ++ toString summary.sample.length ++ " out of "
    ++ toString summary.total.toNat ++ " total warnings for the sake of brevity"

end WarningSummary

namespace Report

def failures (report : Report) : List UrlFailure := report.failures?.getD []

/-- The warnings, if there is anything to show. -/
def shownWarnings? (report : Report) : Option WarningSummary :=
  report.warnings?.filter fun summary => 0 < summary.total || !summary.sample.isEmpty

theorem shownWarnings?_eq (report : Report) : report.shownWarnings? =
    report.warnings?.filter fun summary => summary.total ≠ 0 ∨ summary.sample ≠ [] := by
  refine congrArg (report.warnings?.filter ·) (funext fun summary => ?_)
  rw [Bool.eq_iff_iff]
  simp [UInt64.pos_iff_ne_zero]

/-- The part of the stamp before its first `T`. -/
def lastModifiedDate (report : Report) : String :=
  match report.lastModified? with
  | some stamp => String.ofList (stamp.toList.takeWhile (· != 'T'))
  | none => "Unknown"

end Report

end CrawlBoard
