import CrawlBoard.Pager.Run
import CrawlBoard.Proofs.FetchedItems
import CrawlBoard.Proofs.ItemOutcomes
import Mathlib.Data.List.Nodup
import Mathlib.Data.List.Perm.Basic
/-!
Loading one page while its fetches finish in any order. The items follow the listing, and of the
order only this is left: the first answer to a key counts.
-/

namespace CrawlBoard

namespace ListedPage

def recordedAt? (listed : ListedPage) (answers : Nat → Except StoreError StoredObject)
    (position : Nat) : Option (String × Outcome) :=
  listed.entries[position]?.map fun entry => (entry.key, Pager.outcome entry (answers position))

def recorded (listed : ListedPage) (answers : Nat → Except StoreError StoredObject)
    (order : List Nat) : List (String × Outcome) :=
  order.filterMap (listed.recordedAt? answers)

variable {listed : ListedPage} {answers : Nat → Except StoreError StoredObject} {order : List Nat}

end ListedPage

namespace PageLoad

end PageLoad

namespace Pager

open PageLoad

variable {σ : Type}

end Pager

namespace PageLoad

variable {listed : ListedPage} {answers answers' : Nat → Except StoreError StoredObject}
  {order order' : List Nat}

end PageLoad

end CrawlBoard
