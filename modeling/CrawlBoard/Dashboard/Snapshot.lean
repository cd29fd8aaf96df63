import CrawlBoard.Dashboard.Basic
import CrawlBoard.Page.Card

namespace CrawlBoard

inductive Phase where
  | counting
  | loadingPage
  | pageReady
  deriving DecidableEq, Repr

def Phase.name : Phase → String
  | .counting => "counting"
  | .loadingPage => "loading_page"
  | .pageReady => "page_ready"

structure Snapshot where
  page : Nat
  phase : Phase
  loading : Bool
  error? : Option String
  items : List Item
  hasPrev : Bool
  hasNext : Bool
  total : TotalCount
  pages? : Option Nat
  sitemaps? : Option Nat
  deriving DecidableEq, Repr

structure Overview where
  phase : Phase
  current : Nat
  openPages : List Nat
  total : TotalCount
  sitemaps? : Option Nat
  unmounted : Bool
  deriving DecidableEq, Repr

namespace Dashboard

def anyShown (dashboard : Dashboard) : Bool :=
  dashboard.pages.any fun (_, page) => !page.status.isLoading

def phaseOf (dashboard : Dashboard) (status? : Option PageStatus) : Phase :=
  if status?.all PageStatus.isLoading then
    if dashboard.total = .counting && !dashboard.anyShown then .counting else .loadingPage
  else .pageReady

def phase (dashboard : Dashboard) : Phase :=
  dashboard.phaseOf ((dashboard.page? dashboard.current).map (·.status))

/-- Pages that hold so many reports; at least one. -/
def pageTotal? (dashboard : Dashboard) : Option Nat :=
  dashboard.total.known?.map fun reports =>
    max 1 ((reports + dashboard.pager.pageSize - 1) / dashboard.pager.pageSize)

/-- A page's items as they are later: those of the load that filled it when it was looked up. -/
def laterItems (later : Dashboard) (index : Nat) (page : OpenPage) : PageItems :=
  match later.page? index with
  | some present => if present.serial = page.serial then present.items else page.items
  | none => page.items

/-- The page is looked up first, its items and all else are read later. -/
def snapshotBetween (first later : Dashboard) (index : Nat) : Option Snapshot :=
  (first.page? index).map fun page => {
    page := index
    phase := later.phaseOf (some page.status)
    loading := page.status.isLoading
    error? := match page.status with
      | .failed message => some message
      | _ => none
    items := (later.laterItems index page).items
    hasPrev := 0 < index
    hasNext := page.status.next?.isSome
    total := later.total
    pages? := later.pageTotal?
    sitemaps? := later.sitemaps? }

def snapshot (dashboard : Dashboard) (index : Nat) : Option Snapshot :=
  dashboard.snapshotBetween dashboard index

def currentSnapshot (dashboard : Dashboard) : Option Snapshot := dashboard.snapshot dashboard.current

def overview (dashboard : Dashboard) : Overview where
  phase := dashboard.phase
  current := dashboard.current
  openPages := dashboard.pages.map (·.1)
  total := dashboard.total
  sitemaps? := dashboard.sitemaps?
  unmounted := dashboard.unmounted

end Dashboard

open Json (Tree)

def TotalCount.tree : TotalCount → Tree
  | counting => .object [("state", .text "counting")]
  | known reports => .object [("state", .text "known"), ("value", .natural reports)]
  | unavailable => .object [("state", .text "unavailable")]

namespace Snapshot

def loaded (snapshot : Snapshot) : Nat := snapshot.items.countP fun item => item.report?.isSome

def pending (snapshot : Snapshot) : Nat := snapshot.items.countP Item.isLoading

def cards (snapshot : Snapshot) : List Card := snapshot.items.map Item.card

def tree (snapshot : Snapshot) : Tree := .object <|
  [("page", .natural snapshot.page), ("phase", .text snapshot.phase.name),
    ("loading", .bool snapshot.loading)]
  ++ snapshot.error?.toList.map (fun message => ("error", .text message))
  ++ [("items", .list (snapshot.items.map Item.tree)), ("has_prev", .bool snapshot.hasPrev),
    ("has_next", .bool snapshot.hasNext), ("total_reports", snapshot.total.tree)]
  ++ snapshot.pages?.toList.map (fun pages => ("total_pages", .natural pages))
  ++ snapshot.sitemaps?.toList.map (fun sitemaps => ("sitemaps_in_index", .natural sitemaps))

end Snapshot

def Overview.tree (overview : Overview) : Tree := .object <|
  [("phase", .text overview.phase.name), ("current_page", .natural overview.current),
    ("cached_pages", .list (overview.openPages.map .natural)),
    ("total_reports", overview.total.tree)]
  ++ overview.sitemaps?.toList.map (fun sitemaps => ("sitemaps_in_index", .natural sitemaps))
  ++ [("unmounted", .bool overview.unmounted)]

end CrawlBoard
