import CrawlBoard.Report.Document
/-!
The reports of one page while they are being fetched. Every item starts out loading and is
resolved once; the order is that of the listing, whatever order the outcomes arrive in.
-/

namespace CrawlBoard

inductive ItemStatus where
  | loading
  | loaded (report : Report)
  | failed (message : String)
  deriving DecidableEq, Repr

abbrev Outcome := Except String Report

def ItemStatus.ofOutcome : Outcome → ItemStatus
  | .ok report => .loaded report
  | .error message => .failed message

structure Item where
  key : String
  status : ItemStatus
  deriving DecidableEq, Repr

namespace Item

def placeholder (key : String) : Item := ⟨key, .loading⟩

def isLoading (item : Item) : Bool := item.status = .loading

def error? (item : Item) : Option String :=
  match item.status with
  | .failed message => some message
  | _ => none

def report? (item : Item) : Option Report :=
  match item.status with
  | .loaded report => some report
  | _ => none

/-- An item that has been resolved keeps its first outcome. -/
def resolve (outcome : Outcome) (item : Item) : Item :=
  if item.isLoading then { item with status := .ofOutcome outcome } else item

def tree (item : Item) : Json.Tree := .object <|
  [("key", .text item.key), ("loading", .bool item.isLoading)]
  ++ item.error?.toList.map (fun message => ("error", .text message))
  ++ item.report?.toList.map (fun report => ("data", report.tree))

end Item

/-- Items in listing order, one per key. -/
structure PageItems where
  items : List Item
  deriving DecidableEq, Repr

namespace PageItems

def empty : PageItems := ⟨[]⟩

def distinct : List String → List String
  | [] => []
  | key :: keys => key :: (distinct keys).filter (· ≠ key)

def ofKeys (keys : List String) : PageItems := ⟨(distinct keys).map .placeholder⟩

def keys (page : PageItems) : List String := page.items.map (·.key)

def get? (page : PageItems) (key : String) : Option Item := page.items.find? (·.key = key)

def awaits (page : PageItems) (key : String) : Bool := (page.get? key).any Item.isLoading

/-- Records an outcome; unknown and resolved keys change nothing. -/
def resolve (page : PageItems) (key : String) (outcome : Outcome) : PageItems :=
  ⟨page.items.map fun item => if item.key = key then item.resolve outcome else item⟩

def pending (page : PageItems) : Nat := page.items.countP Item.isLoading

def settled (page : PageItems) : Bool := page.pending = 0

def reports (page : PageItems) : List Report := page.items.filterMap Item.report?

def tree (page : PageItems) : Json.Tree := .list (page.items.map Item.tree)

end PageItems

end CrawlBoard
