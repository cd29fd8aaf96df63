import CrawlBoard.Pager.Run

namespace CrawlBoard

variable {σ : Type}

inductive Asked where
  | listing (query : ListQuery)
  | object (key : String)
  deriving DecidableEq, Repr

def Asked.key? : Asked → Option String
  | .listing _ => none
  | .object key => some key

def Call.logged {α : Type} (call : Call σ α) : Call (σ × List Asked) α where
  gate? := call.gate?
  unmounts := call.unmounts
  answer state := call.answer state.1

def StoreKind.logged (kind : StoreKind σ) : StoreKind (σ × List Asked) where
  location state := kind.location state.1
  list state query :=
    ((kind.list state.1 query).1.logged, (kind.list state.1 query).2, state.2 ++ [.listing query])
  fetch state key :=
    ((kind.fetch state.1 key).1.logged, (kind.fetch state.1 key).2, state.2 ++ [.object key])

namespace Desk

def logged (desk : Desk σ) (log : List Asked) : Desk (σ × List Asked) :=
  ⟨(desk.store, log), desk.cancelled⟩

theorem list_logged (desk : Desk σ) (kind : StoreKind σ) (query : ListQuery) (log : List Asked) :
    (desk.logged log).list kind.logged query =
      ((desk.list kind query).1, (desk.list kind query).2.logged (log ++ [.listing query])) :=
  rfl

theorem fetch_logged (desk : Desk σ) (kind : StoreKind σ) (key : String) (log : List Asked) :
    (desk.logged log).fetch kind.logged key =
      ((desk.fetch kind key).1, (desk.fetch kind key).2.logged (log ++ [.object key])) :=
  rfl

end Desk

end CrawlBoard
