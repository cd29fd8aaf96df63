import CrawlBoard.Page.Items
import CrawlBoard.Pager.Basic
/-!
Loading one page. All reports of a listing are fetched at once, and each answer is written to
its own item as it comes.
-/

namespace CrawlBoard

/-- The answer to a fetch, known by its position in the listing; one that comes after the work
was cancelled is not written. -/
structure Arrival where
  position : Nat
  answer : Except StoreError StoredObject
  cancelled : Bool := false

structure PageLoad where
  listed : ListedPage
  waiting : List Nat
  deriving DecidableEq, Repr

namespace PageLoad

def start (listed : ListedPage) : PageLoad := ⟨listed, List.range listed.entries.length⟩

def placeholders (load : PageLoad) : PageItems := .ofKeys load.listed.keys

def finished (load : PageLoad) : Bool := load.waiting.isEmpty

def take (cancelled : Bool) (position : Nat) (answer : Except StoreError StoredObject)
    (load : PageLoad) (items : PageItems) : PageLoad × PageItems :=
  match load.waiting.contains position, load.listed.entries[position]? with
  | true, some entry =>
      ({ load with waiting := load.waiting.erase position },
        if cancelled then items else items.resolve entry.key (Pager.outcome entry answer))
  | _, _ => (load, items)

def takeAll (arrivals : List Arrival) (load : PageLoad) (items : PageItems) : PageLoad × PageItems :=
  arrivals.foldl (fun (load, items) arrival =>
    load.take arrival.cancelled arrival.position arrival.answer items) (load, items)

/-- A load over the items that are there: first its listing is answered, then its fetches. A
failed listing leaves the items. -/
def run (listing : Except StoreError ListedPage) (arrivals : List Arrival) (items : PageItems) :
    Except StoreError PageLoad × PageItems :=
  match listing with
  | .error error => (.error error, items)
  | .ok listed =>
      let started := start listed
      let (load, items) := started.takeAll arrivals started.placeholders
      (.ok load, items)

end PageLoad

inductive LoadEnd where
  | complete (next? : Option String)
  | cancelled
  deriving DecidableEq, Repr

def LoadEnd.ofListed (cancelled : Bool) (listed : ListedPage) : LoadEnd :=
  if cancelled then .cancelled else .complete listed.next?

end CrawlBoard
