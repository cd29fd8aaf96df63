import CrawlBoard.Page.Items
import CrawlBoard.Report.View

namespace CrawlBoard

structure Card where
  key : String
  loading : Bool
  error? : Option String
  report? : Option ReportView
  deriving DecidableEq, Repr

def Item.card (item : Item) : Card :=
  ⟨item.key, item.isLoading, item.error?, item.report?.map Report.view⟩

def boardTitle : String := "Geoconnex Crawl Status Dashboard"

/-- Page numbers are shown from 1 on; the largest index has no successor. -/
def pageNumber (page : Nat) : Nat := min (page + 1) Json.maxWord

/-- The total shown is never less than the page's own number. -/
def pageLabel (page : Nat) (total? : Option Nat) : String :=
  let number := pageNumber page
  match total? with
  | some total => "Page " ++ toString number ++ " of " ++ toString (max total number)
  | none => "Page " ++ toString number

def indexSummary? (reports? sitemaps? : Option Nat) : Option String := do
  let reports ← reports?
  let sitemaps ← sitemaps?
  some ("Showing reports for " ++ toString reports ++ " sitemaps out of "
    ++ toString sitemaps ++ " in total")

end CrawlBoard
