import CrawlBoard.Pager.Count
import CrawlBoard.Pager.Load
/-!
A mounted dashboard: the pages it has opened, the work that is unfinished and what is known so
far. Pages stay open for good, so going back and forth never loads a page again.
-/

namespace CrawlBoard

inductive TotalCount where
  | counting
  | known (reports : Nat)
  | unavailable
  deriving DecidableEq, Repr

inductive PageStatus where
  | loading
  | ready (next? : Option String)
  | failed (message : String)
  deriving DecidableEq, Repr

inductive NavigationError where
  | unreachable (page : Nat)
  | atFirstPage
  | unmounted
  deriving DecidableEq, Repr

def NavigationError.message : NavigationError → String
  | .unreachable page => "page " ++ toString page ++ " is not reachable yet"
  | .atFirstPage => "already on the first page"
  | .unmounted => "dashboard has been unmounted"

/-- A page and the number of the load that fills it. -/
structure OpenPage where
  serial : Nat
  items : PageItems
  status : PageStatus
  deriving DecidableEq, Repr

inductive LoadStage where
  | asking
  | listing
  | listed (page : ListedPage)
  | refused (error : StoreError)
  | fetching (load : PageLoad)
  deriving DecidableEq, Repr

structure Load where
  serial : Nat
  page : Nat
  token? : Option String
  stage : LoadStage
  deriving DecidableEq, Repr

structure Dashboard where
  pager : Pager
  location : String
  pages : List (Nat × OpenPage) := []
  loads : List Load := []
  serial : Nat := 0
  current : Nat := 0
  /-- Nothing once the total has been settled. -/
  count? : Option CountPass := some .start
  total : TotalCount := .counting
  probing : Bool := false
  sitemaps? : Option Nat := none
  unmounted : Bool := false

namespace PageStatus

def next? : PageStatus → Option String
  | ready token? => token?
  | _ => none

def isLoading (status : PageStatus) : Bool := status = loading

def isFailed : PageStatus → Bool
  | failed _ => true
  | _ => false

end PageStatus

def TotalCount.known? : TotalCount → Option Nat
  | known reports => some reports
  | _ => none

namespace Dashboard

def page? (dashboard : Dashboard) (page : Nat) : Option OpenPage := dashboard.pages.lookup page

def load? (dashboard : Dashboard) (serial : Nat) : Option Load :=
  dashboard.loads.find? (·.serial = serial)

def putPage (index : Nat) (page : OpenPage) : List (Nat × OpenPage) → List (Nat × OpenPage)
  | [] => [(index, page)]
  | (other, present) :: pages =>
      if index < other then (index, page) :: (other, present) :: pages
      else if index = other then (index, page) :: pages
      else (other, present) :: putPage index page pages

/-- Changes the page that a load fills; a page that has been replaced is left alone. -/
def updatePage (dashboard : Dashboard) (load : Load) (change : OpenPage → OpenPage) : Dashboard :=
  { dashboard with
    pages := dashboard.pages.map fun (index, page) =>
      if index = load.page ∧ page.serial = load.serial then (index, change page) else (index, page) }

def setStage (dashboard : Dashboard) (serial : Nat) (stage : LoadStage) : Dashboard :=
  { dashboard with
    loads := dashboard.loads.map fun load =>
      if load.serial = serial then { load with stage } else load }

def dropLoad (dashboard : Dashboard) (serial : Nat) : Dashboard :=
  { dashboard with loads := dashboard.loads.filter (·.serial ≠ serial) }

def reports (dashboard : Dashboard) : List Report :=
  dashboard.pages.flatMap fun (_, page) => page.items.reports

end Dashboard

end CrawlBoard
