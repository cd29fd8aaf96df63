import CrawlBoard.CommandLine.CardLines
import CrawlBoard.CommandLine.RunResult
import CrawlBoard.Dashboard.Walk
import CrawlBoard.Export.Cache

namespace CrawlBoard

def pageLines (pages? : Option Nat) (snapshot : Snapshot) : List Line :=
  [[Paint.cyan.on "→", plain " ", Paint.bold.on (pageLabel snapshot.page pages?)], []]
    ++ (if snapshot.items.isEmpty then [[plain "  No crawl reports on this page"]] else [])
    ++ snapshot.cards.flatMap Card.lines

def totalLines (total : TotalCount) : List Line :=
  total.known?.toList.map fun reports =>
    [Paint.green.on "✓", plain (" " ++ toString reports ++ " crawl reports in total")]

def noSuchPage (target pages : Nat) : String :=
  "Page " ++ toString (target + 1) ++ " does not exist, only " ++ toString pages
    ++ " page(s) of reports"

def wroteLine (reports pages : Nat) (path : String) : Line :=
  [Paint.green.on "✓", plain (" Wrote " ++ toString reports ++ " reports from " ++ toString pages
    ++ " page(s) to " ++ path)]

namespace Session

variable {σ : Type}

/-- Prints a page, which is counted from 0 here, or all pages, once their total is settled. -/
def print (painted : Bool) (patience : Nat) (target : Nat) (all : Bool) (session : Session σ) :
    RunResult :=
  let (walked, session) := session.walk (if all then none else some target) patience patience
  match session.awaitTotal patience, walked with
  | .error error, _ | .ok _, .error error => .failed error.message ""
  | .ok session, .ok pages =>
      if !all && pages ≤ target then .failed (noSuchPage target pages) ""
      else
        let dashboard := session.dashboard.unmount
        let shown := if all then List.range pages else [target]
        let lines := shown.flatMap fun page =>
          (dashboard.snapshot page).toList.flatMap (pageLines dashboard.pageTotal?)
        { output := renderLines painted (lines ++ totalLines dashboard.total) }

def download (painted : Bool) (patience : Nat) (format : ExportFormat) (path? : Option String)
    (session : Session σ) : RunResult :=
  match session.walk none patience patience with
  | (.error error, _) => .failed error.message ""
  | (.ok pages, session) =>
      let reports := session.dashboard.reports
      let body := format.render reports
      match path? with
      | none => { output := body ++ "\n" }
      | some path =>
          { errors := renderLines painted [wroteLine reports.length pages path]
            files := [(path, body)] }

end Session

end CrawlBoard
