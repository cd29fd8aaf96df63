import CrawlBoard.Page.Items
import CrawlBoard.Proofs.Lookup
import Mathlib.Data.List.Nodup

namespace CrawlBoard

namespace ItemStatus

def ofOutcome? : Option Outcome → ItemStatus
  | none => loading
  | some outcome => ofOutcome outcome

@[simp] theorem ofOutcome_ne_loading (outcome : Outcome) : ofOutcome outcome ≠ loading := by
  cases outcome <;> simp [ofOutcome]

theorem ofOutcome?_eq_loading_iff (outcome? : Option Outcome) :
    ofOutcome? outcome? = loading ↔ outcome? = none := by
  cases outcome? <;> simp [ofOutcome?]

end ItemStatus

namespace Item

@[simp] theorem isLoading_resolve (outcome : Outcome) (item : Item) :
    (item.resolve outcome).isLoading = false := by
  unfold resolve
  split
  · simp [isLoading]
  · rename_i settled
    simpa using settled

theorem resolve_of_settled (outcome : Outcome) {item : Item} (settled : item.isLoading = false) :
    item.resolve outcome = item := by
  simp [resolve, settled]

def settle (outcomes : List (String × Outcome)) (item : Item) : Item :=
  match outcomes.lookup item.key with
  | some outcome => item.resolve outcome
  | none => item

theorem settle_of_settled (outcomes : List (String × Outcome)) {item : Item}
    (settled : item.isLoading = false) : item.settle outcomes = item := by
  unfold settle
  split
  · exact resolve_of_settled _ settled
  · rfl

theorem settle_cons (key : String) (outcome : Outcome) (outcomes : List (String × Outcome))
    (item : Item) :
    item.settle ((key, outcome) :: outcomes) =
      (if item.key = key then item.resolve outcome else item).settle outcomes := by
  by_cases same : item.key = key
  · rw [if_pos same, settle_of_settled outcomes (isLoading_resolve outcome item)]
    simp [settle, same]
  · rw [if_neg same]
    simp [settle, Lookup.lookup_cons_eq_ite, same]

theorem settle_placeholder (outcomes : List (String × Outcome)) (key : String) :
    (placeholder key).settle outcomes = ⟨key, .ofOutcome? (outcomes.lookup key)⟩ := by
  simp only [settle, placeholder]
  cases outcomes.lookup key <;> rfl

end Item

namespace PageItems

theorem mem_distinct (key : String) (keys : List String) : key ∈ distinct keys ↔ key ∈ keys := by
  induction keys with
  | nil => simp [distinct]
  | cons head tail ih =>
      by_cases same : key = head <;> simp [distinct, ih, same]

theorem nodup_distinct (keys : List String) : (distinct keys).Nodup := by
  induction keys with
  | nil => exact List.nodup_nil
  | cons head tail ih =>
      refine List.nodup_cons.mpr ⟨?_, ih.sublist List.filter_sublist⟩
      simp

theorem distinct_of_nodup {keys : List String} (nodup : keys.Nodup) : distinct keys = keys := by
  induction keys with
  | nil => rfl
  | cons head tail ih =>
      have ⟨absent, rest⟩ := List.nodup_cons.mp nodup
      rw [distinct, ih rest, List.filter_eq_self.mpr]
      intro key member
      exact decide_eq_true fun same => absent (same ▸ member)

@[simp] theorem keys_ofKeys (keys : List String) : (ofKeys keys).keys = distinct keys := by
  simp [PageItems.keys, ofKeys, Item.placeholder, Function.comp_def]

@[simp] theorem keys_resolve (page : PageItems) (key : String) (outcome : Outcome) :
    (page.resolve key outcome).keys = page.keys := by
  simp only [PageItems.keys, resolve, List.map_map]
  apply List.map_congr_left
  intro item _
  simp only [Function.comp, Item.resolve]
  split
  · split <;> rfl
  · rfl

theorem get?_eq_some_iff {page : PageItems} (nodup : page.keys.Nodup) (key : String)
    (item : Item) : page.get? key = some item ↔ item ∈ page.items ∧ item.key = key := by
  constructor
  · intro found
    exact ⟨List.mem_of_find?_eq_some found, by simpa using List.find?_some found⟩
  · rintro ⟨member, rfl⟩
    obtain ⟨other, found⟩ := Option.isSome_iff_exists.mp
      (List.find?_isSome.mpr ⟨item, member, decide_eq_true rfl⟩ : (page.get? item.key).isSome)
    have same : other.key = item.key := by simpa using List.find?_some found
    have identical := List.inj_on_of_nodup_map nodup (List.mem_of_find?_eq_some found) member same
    exact identical ▸ found

theorem get?_resolve (page : PageItems) (key : String) (outcome : Outcome) (other : String) :
    (page.resolve key outcome).get? other =
      (page.get? other).map fun item => if item.key = key then item.resolve outcome else item := by
  have sameKey (item : Item) :
      (if item.key = key then item.resolve outcome else item).key = item.key := by
    simp only [Item.resolve]
    split
    · split <;> rfl
    · rfl
  simp only [get?, resolve, List.find?_map, Function.comp_def, sameKey]

def resolveAll (page : PageItems) (outcomes : List (String × Outcome)) : PageItems :=
  outcomes.foldl (fun page (key, outcome) => page.resolve key outcome) page

theorem items_resolveAll (page : PageItems) (outcomes : List (String × Outcome)) :
    (page.resolveAll outcomes).items = page.items.map (Item.settle outcomes) := by
  induction outcomes generalizing page with
  | nil => exact (List.map_id page.items).symm
  | cons head tail ih =>
      obtain ⟨key, outcome⟩ := head
      calc
        (page.resolveAll ((key, outcome) :: tail)).items
            = (page.resolve key outcome).items.map (Item.settle tail) := ih _
        _ = page.items.map (Item.settle ((key, outcome) :: tail)) := by
          simp only [resolve, List.map_map]
          exact List.map_congr_left fun item _ => (Item.settle_cons key outcome tail item).symm

theorem resolveAll_append (page : PageItems) (first second : List (String × Outcome)) :
    page.resolveAll (first ++ second) = (page.resolveAll first).resolveAll second :=
  List.foldl_append

theorem items_resolveAll_ofKeys (keys : List String) (outcomes : List (String × Outcome)) :
    ((ofKeys keys).resolveAll outcomes).items =
      (distinct keys).map fun key => ⟨key, .ofOutcome? (outcomes.lookup key)⟩ := by
  rw [items_resolveAll, ofKeys, List.map_map]
  exact List.map_congr_left fun key _ => Item.settle_placeholder outcomes key

@[simp] theorem keys_resolveAll_ofKeys (keys : List String) (outcomes : List (String × Outcome)) :
    ((ofKeys keys).resolveAll outcomes).keys = distinct keys := by
  rw [PageItems.keys, items_resolveAll_ofKeys, List.map_map]
  exact List.map_id _

theorem resolveAll_ofKeys_congr (keys : List String) (outcomes others : List (String × Outcome))
    (same : ∀ key ∈ keys, outcomes.lookup key = others.lookup key) :
    (ofKeys keys).resolveAll outcomes = (ofKeys keys).resolveAll others := by
  have items : ((ofKeys keys).resolveAll outcomes).items =
      ((ofKeys keys).resolveAll others).items := by
    rw [items_resolveAll_ofKeys, items_resolveAll_ofKeys]
    apply List.map_congr_left
    intro key member
    rw [same key ((mem_distinct key keys).mp member)]
  exact congrArg PageItems.mk items

theorem settled_iff (page : PageItems) :
    page.settled ↔ ∀ item ∈ page.items, item.status ≠ .loading := by
  simp [settled, pending, List.countP_eq_zero, Item.isLoading]

theorem settled_resolveAll_ofKeys (keys : List String) (outcomes : List (String × Outcome)) :
    ((ofKeys keys).resolveAll outcomes).settled ↔
      ∀ key ∈ keys, (outcomes.lookup key).isSome := by
  rw [settled_iff, items_resolveAll_ofKeys]
  simp [ItemStatus.ofOutcome?_eq_loading_iff, mem_distinct, Option.isSome_iff_ne_none]

theorem find?_eq_ite_mem (key : String) (keys : List String) :
    (keys.find? fun other => other = key) = if key ∈ keys then some key else none := by
  by_cases member : key ∈ keys
  · rw [if_pos member]
    obtain ⟨found, lookup⟩ := Option.isSome_iff_exists.mp
      (List.find?_isSome.mpr ⟨key, member, decide_eq_true rfl⟩ :
        (keys.find? fun other => other = key).isSome)
    have same : found = key := by simpa using List.find?_some lookup
    rw [lookup, same]
  · rw [if_neg member, List.find?_eq_none]
    rintro other present
    simpa using fun same : other = key => member (same ▸ present)

theorem get?_resolveAll_ofKeys (keys : List String) (outcomes : List (String × Outcome))
    (key : String) :
    ((ofKeys keys).resolveAll outcomes).get? key =
      if key ∈ keys then some ⟨key, .ofOutcome? (outcomes.lookup key)⟩ else none := by
  rw [get?, items_resolveAll_ofKeys, List.find?_map]
  change ((distinct keys).find? fun other => other = key).map _ = _
  simp only [find?_eq_ite_mem, mem_distinct]
  split <;> rfl

end PageItems

end CrawlBoard
