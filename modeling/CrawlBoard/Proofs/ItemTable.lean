import CrawlBoard.Proofs.ItemOutcomes
import Mathlib.Data.List.Basic
import Mathlib.Data.List.Induction
/-!
Items kept twice, as an order of keys and as a map from keys. Both stay in step through any
sequence of outcomes, and show what the list of items shows.
-/

namespace CrawlBoard

/-- The keys in their order, and the item that is stored under each. -/
structure ItemTable where
  order : List String
  stored : String → Option Item

namespace ItemTable

/-- A key that is stored already is passed over. -/
def add (table : ItemTable) (key : String) : ItemTable :=
  if (table.stored key).isSome then table
  else ⟨table.order ++ [key], Function.update table.stored key (some (.placeholder key))⟩

def ofKeys (keys : List String) : ItemTable := keys.foldl add ⟨[], fun _ => none⟩

def resolve (table : ItemTable) (key : String) (outcome : Outcome) : Bool × ItemTable :=
  match table.stored key with
  | none => (false, table)
  | some item =>
      if item.isLoading then
        (true, ⟨table.order, Function.update table.stored key (some (item.resolve outcome))⟩)
      else (false, table)

def resolveAll (table : ItemTable) (outcomes : List (String × Outcome)) : ItemTable :=
  outcomes.foldl (fun table (key, outcome) => (table.resolve key outcome).2) table

def items (table : ItemTable) : List Item := table.order.filterMap table.stored

end ItemTable

namespace PageItems

theorem distinct_concat (keys : List String) (key : String) :
    distinct (keys ++ [key]) = if key ∈ keys then distinct keys else distinct keys ++ [key] := by
  induction keys with
  | nil => rfl
  | cons head tail ih =>
      rw [List.cons_append, distinct, ih]
      by_cases again : key ∈ tail
      · simp [distinct, again]
      · by_cases first : key = head
        · simp [distinct, ← first, again]
        · simp [distinct, first, again]

theorem distinct_pairwise (keys : List String) :
    (distinct keys).Pairwise fun earlier later => keys.idxOf earlier < keys.idxOf later := by
  induction keys with
  | nil => exact .nil
  | cons head tail ih =>
      have behind (key : String) (member : key ∈ (distinct tail).filter (· ≠ head)) :
          (head :: tail).idxOf key = tail.idxOf key + 1 := by
        have other : head ≠ key := by
          rintro rfl
          simp at member
        exact List.idxOf_cons_ne tail other
      refine List.pairwise_cons.mpr ⟨?_, ?_⟩
      · intro key member
        rw [List.idxOf_cons_self, behind key member]
        exact Nat.succ_pos _
      · refine (ih.sublist List.filter_sublist).imp_of_mem ?_
        intro earlier later earlierMember laterMember before
        rw [behind earlier earlierMember, behind later laterMember]
        exact Nat.succ_lt_succ before

theorem mem_keys_resolveAll_ofKeys (keys : List String) (outcomes : List (String × Outcome))
    (key : String) : key ∈ ((ofKeys keys).resolveAll outcomes).keys ↔ key ∈ keys := by
  rw [keys_resolveAll_ofKeys, mem_distinct]

theorem awaits_resolveAll_ofKeys (keys : List String) (outcomes : List (String × Outcome))
    (key : String) :
    ((ofKeys keys).resolveAll outcomes).awaits key = true ↔
      key ∈ keys ∧ key ∉ outcomes.map (·.1) := by
  rw [awaits, get?_resolveAll_ofKeys, ← Lookup.lookup_isSome_iff_mem, Option.not_isSome_iff_eq_none]
  by_cases known : key ∈ keys
  · simp [known, Item.isLoading, ItemStatus.ofOutcome?_eq_loading_iff]
  · simp [known]

theorem resolve_of_not_awaits {page : PageItems} (nodup : page.keys.Nodup) {key : String}
    (settled : page.awaits key = false) (outcome : Outcome) : page.resolve key outcome = page := by
  have unchanged (item : Item) (member : item ∈ page.items) :
      (if item.key = key then item.resolve outcome else item) = item := by
    by_cases same : item.key = key
    · rw [awaits, (get?_eq_some_iff nodup key item).mpr ⟨member, same⟩] at settled
      rw [if_pos same, Item.resolve_of_settled outcome settled]
    · rw [if_neg same]
  calc
    page.resolve key outcome = ⟨page.items.map id⟩ :=
      congrArg PageItems.mk (List.map_congr_left unchanged)
    _ = page := congrArg PageItems.mk (List.map_id _)

theorem pending_resolveAll_ofKeys (keys : List String) (outcomes : List (String × Outcome)) :
    ((ofKeys keys).resolveAll outcomes).pending =
      ((distinct keys).filter fun key => key ∉ outcomes.map (·.1)).length := by
  rw [pending, items_resolveAll_ofKeys, List.countP_map, ← List.countP_eq_length_filter]
  refine List.countP_congr fun key _ => ?_
  rw [Function.comp, Item.isLoading, decide_eq_true_iff, decide_eq_true_iff,
    ItemStatus.ofOutcome?_eq_loading_iff, ← Lookup.lookup_isSome_iff_mem,
    Option.not_isSome_iff_eq_none]

theorem reports_resolveAll_ofKeys (keys : List String) (outcomes : List (String × Outcome)) :
    ((ofKeys keys).resolveAll outcomes).reports =
      (distinct keys).filterMap fun key => (outcomes.lookup key).bind Except.toOption := by
  rw [reports, items_resolveAll_ofKeys, List.filterMap_map]
  refine List.filterMap_congr fun key _ => ?_
  simp only [Function.comp, Item.report?]
  rcases outcomes.lookup key with _ | (message | report) <;> rfl

end PageItems

namespace ItemTable

/-- The table and the page keep the same items under the same keys. -/
structure Shows (table : ItemTable) (page : PageItems) : Prop where
  order : table.order = page.keys
  stored : ∀ key, table.stored key = page.get? key

theorem shows_ofKeys (keys : List String) : (ofKeys keys).Shows (.ofKeys keys) := by
  induction keys using List.reverseRecOn with
  | nil => exact ⟨rfl, fun _ => rfl⟩
  | append_singleton keys key ih =>
      have stored (keys : List String) (key : String) :
          (PageItems.ofKeys keys).get? key =
            if key ∈ keys then some (.placeholder key) else none :=
        PageItems.get?_resolveAll_ofKeys keys [] key
      have grown : ofKeys (keys ++ [key]) = (ofKeys keys).add key := by
        rw [ofKeys, List.foldl_append]
        rfl
      rw [grown, add, ih.stored, stored]
      by_cases known : key ∈ keys
      · have same : PageItems.ofKeys (keys ++ [key]) = .ofKeys keys := by
          rw [PageItems.ofKeys, PageItems.distinct_concat, if_pos known, PageItems.ofKeys]
        rw [if_pos known, same]
        exact ih
      · rw [if_neg known]
        constructor
        case order =>
          change (ofKeys keys).order ++ [key] = _
          rw [ih.order, PageItems.keys_ofKeys, PageItems.keys_ofKeys, PageItems.distinct_concat,
            if_neg known]
        case stored =>
          intro other
          rw [stored]
          by_cases same : other = key
          · simp [same]
          · simp [same, Function.update_of_ne, ih.stored, stored]

variable {table : ItemTable} {page : PageItems}

theorem Shows.record (shows : table.Shows page) (nodup : page.keys.Nodup) {key : String}
    {item : Item} (found : page.get? key = some item) (outcome : Outcome) :
    (⟨table.order, Function.update table.stored key (some (item.resolve outcome))⟩ :
      ItemTable).Shows (page.resolve key outcome) := by
  constructor
  case order =>
    rw [PageItems.keys_resolve]
    exact shows.order
  case stored =>
    intro other
    rw [PageItems.get?_resolve]
    by_cases same : other = key
    · have itsKey := ((PageItems.get?_eq_some_iff nodup key item).mp found).2
      simp [same, found, itsKey]
    · have kept := Function.update_of_ne same (some (item.resolve outcome)) table.stored
      refine (kept.trans (shows.stored other)).trans ?_
      cases stored : page.get? other with
      | none => rfl
      | some present =>
          have itsKey := ((PageItems.get?_eq_some_iff nodup other present).mp stored).2
          simp [itsKey, same]

theorem Shows.resolve (shows : table.Shows page) (nodup : page.keys.Nodup) (key : String)
    (outcome : Outcome) :
    (table.resolve key outcome).1 = page.awaits key ∧
      (table.resolve key outcome).2.Shows (page.resolve key outcome) := by
  have stored := shows.stored key
  cases found : page.get? key with
  | none =>
      have settled : page.awaits key = false := by simp [PageItems.awaits, found]
      rw [PageItems.resolve_of_not_awaits nodup settled, settled]
      simpa [ItemTable.resolve, stored, found] using shows
  | some item =>
      have awaits : page.awaits key = item.isLoading := by simp [PageItems.awaits, found]
      cases loading : item.isLoading with
      | false =>
          have settled : page.awaits key = false := awaits.trans loading
          rw [PageItems.resolve_of_not_awaits nodup settled, settled]
          simpa [ItemTable.resolve, stored, found, loading] using shows
      | true =>
          rw [awaits, loading]
          simpa [ItemTable.resolve, stored, found, loading] using
            shows.record nodup found outcome

theorem Shows.resolveAll (shows : table.Shows page) (nodup : page.keys.Nodup)
    (outcomes : List (String × Outcome)) :
    (table.resolveAll outcomes).Shows (page.resolveAll outcomes) := by
  induction outcomes generalizing table page with
  | nil => exact shows
  | cons call outcomes ih =>
      obtain ⟨key, outcome⟩ := call
      refine ih (shows.resolve nodup key outcome).2 ?_
      rwa [PageItems.keys_resolve]

theorem Shows.unique {other : ItemTable} (shows : table.Shows page) (too : other.Shows page) :
    table = other := by
  obtain ⟨order, stored⟩ := table
  obtain ⟨otherOrder, otherStored⟩ := other
  obtain rfl : order = otherOrder := shows.order.trans too.order.symm
  obtain rfl : stored = otherStored :=
    funext fun key => (shows.stored key).trans (too.stored key).symm
  rfl

theorem Shows.items (shows : table.Shows page) (nodup : page.keys.Nodup) :
    table.items = page.items := by
  have stored (item : Item) (member : item ∈ page.items) : table.stored item.key = some item :=
    (shows.stored item.key).trans ((PageItems.get?_eq_some_iff nodup _ _).mpr ⟨member, rfl⟩)
  calc
    table.items = page.items.filterMap fun item => table.stored item.key := by
      rw [ItemTable.items, shows.order, PageItems.keys, List.filterMap_map]
      rfl
    _ = page.items.filterMap some := List.filterMap_congr stored
    _ = page.items := List.filterMap_some ..

end ItemTable

namespace PageItems

/-- After any outcomes the items are still those of the keys, each key once and where it first
stood. An outcome is recorded exactly if it is the first one for a key of the page, and changes
nothing otherwise, so that every item holds the first outcome of its key and only these matter.
What is kept apart, as an order and by key, stays in step with the items. -/
theorem items_hold_first_outcomes (keys : List String) (outcomes : List (String × Outcome)) :
    let page := (ofKeys keys).resolveAll outcomes
    let table := (ItemTable.ofKeys keys).resolveAll outcomes
    (page.keys.Pairwise (fun earlier later => keys.idxOf earlier < keys.idxOf later) ∧
      ∀ key, key ∈ page.keys ↔ key ∈ keys) ∧
    (table.order = page.keys ∧ table.stored = page.get? ∧ table.items = page.items) ∧
    (∀ key, page.get? key = if key ∈ keys then
      some ⟨key, match outcomes.lookup key with
        | none => .loading
        | some (.ok report) => .loaded report
        | some (.error message) => .failed message⟩ else none) ∧
    (∀ key outcome,
      ((table.resolve key outcome).1 = true ↔ key ∈ keys ∧ key ∉ outcomes.map (·.1)) ∧
      ((table.resolve key outcome).1 = page.awaits key) ∧
      ((table.resolve key outcome).1 = false →
        (table.resolve key outcome).2 = table ∧ page.resolve key outcome = page)) ∧
    (∀ others, (∀ key ∈ keys, outcomes.lookup key = others.lookup key) →
      page = (ofKeys keys).resolveAll others ∧ table = (ItemTable.ofKeys keys).resolveAll others) ∧
    page.pending = (page.keys.filter fun key => key ∉ outcomes.map (·.1)).length ∧
    (page.settled = true ↔ ∀ key ∈ keys, key ∈ outcomes.map (·.1)) ∧
    page.reports = page.keys.filterMap fun key => (outcomes.lookup key).bind Except.toOption := by
  intro page table
  have keysOf : page.keys = distinct keys := keys_resolveAll_ofKeys keys outcomes
  have nodup : page.keys.Nodup := keysOf ▸ nodup_distinct keys
  -- The table is compared with the page once, after any outcomes.
  have shows (outcomes : List (String × Outcome)) :
      ((ItemTable.ofKeys keys).resolveAll outcomes).Shows ((ofKeys keys).resolveAll outcomes) :=
    (ItemTable.shows_ofKeys keys).resolveAll
      (keys_ofKeys keys ▸ nodup_distinct keys) outcomes
  refine ⟨⟨keysOf ▸ distinct_pairwise keys, mem_keys_resolveAll_ofKeys keys outcomes⟩,
    ⟨(shows outcomes).order, funext (shows outcomes).stored, (shows outcomes).items nodup⟩,
    ?_, ?_, ?_, ?_, ?_, ?_⟩
  · intro key
    rw [get?_resolveAll_ofKeys]
    rcases outcomes.lookup key with _ | (message | report) <;> rfl
  · intro key outcome
    have told := ((shows outcomes).resolve nodup key outcome).1
    refine ⟨?_, told, ?_⟩
    · rw [told]
      exact awaits_resolveAll_ofKeys keys outcomes key
    · intro unheard
      have settled : page.awaits key = false := told.symm.trans unheard
      have unchanged := resolve_of_not_awaits nodup settled outcome
      have after := ((shows outcomes).resolve nodup key outcome).2
      rw [unchanged] at after
      exact ⟨after.unique (shows outcomes), unchanged⟩
  · intro others same
    have samePage := resolveAll_ofKeys_congr keys outcomes others same
    refine ⟨samePage, (shows outcomes).unique ?_⟩
    rw [samePage]
    exact shows others
  · rw [keysOf]
    exact pending_resolveAll_ofKeys keys outcomes
  · rw [settled_resolveAll_ofKeys]
    exact forall₂_congr fun key _ => Lookup.lookup_isSome_iff_mem key outcomes
  · rw [keysOf]
    exact reports_resolveAll_ofKeys keys outcomes

/-- A repeated key, a second outcome that comes too late, and one for an unknown key. -/
theorem late_outcomes_end_alike :
    let keys := ["b", "a", "b"]
    let outcomes := [("a", .error "first"), ("a", .error "late"), ("b", .error "other")]
    let others := [("c", .error "unknown"), ("b", .error "other"), ("a", .error "first")]
    (∀ key ∈ keys, outcomes.lookup key = others.lookup key) ∧
      (ofKeys keys).resolveAll outcomes = (ofKeys keys).resolveAll others ∧
      ((ofKeys keys).resolveAll others).items =
        [⟨"b", .failed "other"⟩, ⟨"a", .failed "first"⟩] := by
  intro keys outcomes others
  have same : ∀ key ∈ keys, outcomes.lookup key = others.lookup key := by decide
  have alike := ((items_hold_first_outcomes keys outcomes).2.2.2.2.1 others same).1
  exact ⟨same, alike, by decide⟩

end PageItems

end CrawlBoard
