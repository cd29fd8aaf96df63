import CrawlBoard.Proofs.Digits
import CrawlBoard.Store.Memory

namespace CrawlBoard.MemoryStore

theorem start_toString {number start : Nat}
    (read : MemoryStore.start (some (toString number)) = .ok start) : start = number := by
  simp only [MemoryStore.start, Digits.parse_toString] at read
  split at read
  · rename_i found
    split at found
    · cases found
      cases read
      rfl
    · cases found
  · cases read

theorem next?_page (entries : List ObjectEntry) (start limit : Nat) :
    (page entries start limit).next? =
      if start + limit < entries.length then some (toString (start + limit)) else none := by
  simp only [page, List.length_take, List.length_drop]
  by_cases more : start + limit < entries.length
  · have whole : start + min limit (entries.length - start) = start + limit := by omega
    rw [whole, if_pos more]
  · have last : ¬ start + min limit (entries.length - start) < entries.length := by omega
    rw [if_neg last, if_neg more]

theorem isSome_next?_page (entries : List ObjectEntry) (start limit : Nat) :
    (page entries start limit).next?.isSome ↔ start + limit < entries.length := by
  rw [next?_page]
  split <;> simp_all

theorem list_ok {store : MemoryStore} {query : ListQuery} {listing : ObjectPage}
    (listed : store.list query = .ok listing) :
    ∃ start, MemoryStore.start query.token? = .ok start ∧
      listing = page (store.under query.keyPrefix) start query.limit := by
  unfold MemoryStore.list at listed
  split at listed
  · cases listed
  · cases read : MemoryStore.start query.token? with
    | error error =>
        rw [read] at listed
        cases listed
    | ok start =>
        rw [read] at listed
        cases listed
        exact ⟨start, rfl, rfl⟩

theorem flatMap_slices {α : Type} (entries : List α) (size count : Nat) :
    (List.range count).flatMap (fun index => (entries.drop (index * size)).take size) =
      entries.take (count * size) := by
  induction count with
  | zero => rw [Nat.zero_mul, List.take_zero, List.range_zero, List.flatMap_nil]
  | succ count ih =>
      rw [List.range_succ, List.flatMap_append, ih, List.flatMap_singleton, Nat.succ_mul,
        List.take_add]

theorem keys_under (store : MemoryStore) (keyPrefix : String) :
    (store.under keyPrefix).map (·.key) =
      (store.objects.map (·.1)).filter fun key => keyPrefix.toList.isPrefixOf key.toList := by
  rw [under, List.map_map, List.filter_map]
  rfl

theorem keys_under_ordered (store : MemoryStore) (keyPrefix : String) :
    ((store.under keyPrefix).map (·.key)).Pairwise (· < ·) := by
  rw [keys_under]
  exact (List.pairwise_map.mpr store.ordered).filter _

def reportsUnder (store : MemoryStore) (keyPrefix : String) : List ObjectEntry :=
  (store.under keyPrefix).filter ObjectEntry.isReport

end CrawlBoard.MemoryStore
