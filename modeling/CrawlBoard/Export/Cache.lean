import CrawlBoard.Export.LinkedData
/-!
Renderings of the reports for download. The last rendering of each format is kept and handed out
again while the reports, as written in one line, stay the same.
-/

namespace CrawlBoard

inductive ExportFormat where
  | json
  | linkedData
  deriving DecidableEq, Repr

namespace ExportFormat

def render (format : ExportFormat) (reports : List Report) : String :=
  match format with
  | json => (Report.listTree reports).pretty
  | linkedData => (LinkedData.compose reports).pretty

end ExportFormat

/-- The reports a rendering was made of, in one line, and the rendering. -/
structure Rendering where
  source : String
  body : String
  deriving DecidableEq, Repr

structure ExportCache where
  json? : Option Rendering := none
  linkedData? : Option Rendering := none
  deriving DecidableEq, Repr

namespace ExportCache

def get? (cache : ExportCache) : ExportFormat → Option Rendering
  | .json => cache.json?
  | .linkedData => cache.linkedData?

def put (cache : ExportCache) (format : ExportFormat) (rendering : Rendering) : ExportCache :=
  match format with
  | .json => { cache with json? := some rendering }
  | .linkedData => { cache with linkedData? := some rendering }

structure Answer where
  body : String
  reused : Bool
  deriving DecidableEq, Repr

def fetch (cache : ExportCache) (format : ExportFormat) (reports : List Report) :
    Answer × ExportCache :=
  let source := (Report.listTree reports).compact
  match (cache.get? format).filter fun rendering => rendering.source = source with
  | some rendering => (⟨rendering.body, true⟩, cache)
  | none =>
      let body := format.render reports
      (⟨body, false⟩, cache.put format ⟨source, body⟩)

end ExportCache

end CrawlBoard
