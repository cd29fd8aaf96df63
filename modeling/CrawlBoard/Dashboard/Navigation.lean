import CrawlBoard.Dashboard.Basic

namespace CrawlBoard

inductive Command where
  | navigate (page : Nat)
  | visit (page : Nat)
  | next
  | prev
  | unmount
  deriving DecidableEq, Repr

namespace Dashboard

def entrance? (dashboard : Dashboard) : Nat → Option (Option String)
  | 0 => some none
  | page + 1 => ((dashboard.page? page).bind fun before => before.status.next?).map some

def startLoad (dashboard : Dashboard) (page : Nat) (token? : Option String) : Dashboard :=
  { dashboard with
    pages := putPage page ⟨dashboard.serial, .empty, .loading⟩ dashboard.pages
    loads := dashboard.loads ++ [⟨dashboard.serial, page, token?, .asking⟩]
    serial := dashboard.serial + 1
    current := page }

/-- Goes to a page and loads it, unless it is open; a page that failed is loaded again. -/
def navigate (dashboard : Dashboard) (page : Nat) : Except NavigationError Dashboard :=
  if dashboard.unmounted then .error .unmounted
  else if (dashboard.page? page).any fun present => !present.status.isFailed then
    .ok { dashboard with current := page }
  else match dashboard.entrance? page with
    | some token? => .ok (dashboard.startLoad page token?)
    | none => .error (.unreachable page)

/-- Goes to a page and loads it only if it was never opened. -/
def visit (dashboard : Dashboard) (page : Nat) : Except NavigationError Dashboard :=
  if (dashboard.page? page).isSome && !dashboard.unmounted then
    .ok { dashboard with current := page }
  else dashboard.navigate page

def next (dashboard : Dashboard) : Except NavigationError Dashboard :=
  dashboard.navigate (dashboard.current + 1)

def prev (dashboard : Dashboard) : Except NavigationError Dashboard :=
  match dashboard.current with
  | 0 => .error .atFirstPage
  | page + 1 => dashboard.navigate page

def unmount (dashboard : Dashboard) : Dashboard := { dashboard with unmounted := true }

def perform (dashboard : Dashboard) : Command → Except NavigationError Dashboard
  | .navigate page => dashboard.navigate page
  | .visit page => dashboard.visit page
  | .next => dashboard.next
  | .prev => dashboard.prev
  | .unmount => .ok dashboard.unmount

def mount (pager : Pager) (location : String) (probing : Bool) : Dashboard :=
  startLoad { pager, location, probing } 0 none

end Dashboard

end CrawlBoard
