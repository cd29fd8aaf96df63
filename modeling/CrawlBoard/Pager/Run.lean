import CrawlBoard.Pager.Count
import CrawlBoard.Pager.Load

namespace CrawlBoard

structure Desk (σ : Type) where
  store : σ
  cancelled : Bool := false

namespace Desk

variable {σ : Type}

def proceed {α : Type} (desk : Desk σ) (called : Call σ α × σ) : Except StoreError α × Desk σ :=
  (called.1.answer called.2, ⟨called.2, desk.cancelled || called.1.unmounts⟩)

def list (kind : StoreKind σ) (query : ListQuery) (desk : Desk σ) :
    Except StoreError ObjectPage × Desk σ :=
  desk.proceed (kind.list desk.store query)

def fetch (kind : StoreKind σ) (key : String) (desk : Desk σ) :
    Except StoreError StoredObject × Desk σ :=
  desk.proceed (kind.fetch desk.store key)

end Desk

namespace Pager

variable {σ : Type}

def listPage (pager : Pager) (kind : StoreKind σ) (token? : Option String) (desk : Desk σ) :
    Except StoreError ListedPage × Desk σ :=
  let (answer, desk) := desk.list kind (pager.query token?)
  (answer.map ListedPage.ofListing, desk)

def fetchOne (kind : StoreKind σ) (entry : ObjectEntry) (desk : Desk σ) :
    Except FetchError Report × Desk σ :=
  let (answer, desk) := desk.fetch kind entry.key
  (fetched entry answer, desk)

def fetchAll (kind : StoreKind σ) : List ObjectEntry → Nat → Desk σ → List Arrival × Desk σ
  | [], _, desk => ([], desk)
  | entry :: entries, position, desk =>
      let (answer, desk) := desk.fetch kind entry.key
      let (arrivals, last) := fetchAll kind entries (position + 1) desk
      (⟨position, answer, desk.cancelled⟩ :: arrivals, last)

/-- Loads a page over the items that are there; a failed listing leaves them. -/
def loadPage (pager : Pager) (kind : StoreKind σ) (token? : Option String) (items : PageItems)
    (desk : Desk σ) : Except StoreError LoadEnd × PageItems × Desk σ :=
  match pager.listPage kind token? desk with
  | (.error error, desk) => (.error error, items, desk)
  | (.ok listed, desk) =>
      if desk.cancelled then (.ok .cancelled, items, desk)
      else
        let (arrivals, desk) := fetchAll kind listed.entries 0 desk
        let (_, items) := PageLoad.run (.ok listed) arrivals items
        (.ok (.ofListed desk.cancelled listed), items, desk)

def countFrom (pager : Pager) (kind : StoreKind σ) : Nat → CountPass → Desk σ → CountPass × Desk σ
  | 0, pass, desk => (pass, desk)
  | fuel + 1, pass, desk =>
      match pass.ask desk.cancelled with
      | .waiting token? counted =>
          let (answer, desk) := desk.list kind (pager.countQuery token?)
          pager.countFrom kind fuel (CountPass.take answer (.waiting token? counted)) desk
      | pass => (pass, desk)

end Pager

end CrawlBoard
