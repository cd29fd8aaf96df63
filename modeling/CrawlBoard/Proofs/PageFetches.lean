import CrawlBoard.Dashboard.Work
import CrawlBoard.Proofs.LoadOrder
import CrawlBoard.Proofs.StoreLog
/-!
The fetches of one page load. A load fetches every report it is listed, entry by entry, so a key
that is listed twice is fetched twice although its page has one item for it.
-/

namespace CrawlBoard

variable {σ : Type}

namespace Pager

theorem fetchAll_logged (kind : StoreKind σ) (entries : List ObjectEntry) (position : Nat)
    (desk : Desk σ) (log : List Asked) :
    fetchAll kind.logged entries position (desk.logged log) =
      ((fetchAll kind entries position desk).1, (fetchAll kind entries position desk).2.logged
        (log ++ entries.map fun entry => .object entry.key)) := by
  induction entries generalizing position desk log with
  | nil => simp [fetchAll]
  | cons entry entries ih =>
      have rest := ih (position + 1) (desk.fetch kind entry.key).2 (log ++ [.object entry.key])
      simp only [fetchAll, desk.fetch_logged, rest]
      simp [Desk.logged]

/-- The keys of the fetches that a load makes, call by call. -/
def fetches (pager : Pager) (kind : StoreKind σ) (token? : Option String) (items : PageItems)
    (desk : Desk σ) : List String :=
  (pager.loadPage kind.logged token? items (desk.logged [])).2.2.store.2.filterMap Asked.key?

theorem loadPage_answered (pager : Pager) (kind : StoreKind σ) (token? : Option String)
    (items : PageItems) (desk : Desk σ) {listing : ObjectPage}
    (answered : (desk.list kind (pager.query token?)).1 = .ok listing)
    (running : (desk.list kind (pager.query token?)).2.cancelled = false) :
    pager.loadPage kind token? items desk =
      (let listed := ListedPage.ofListing listing
       let fetched := fetchAll kind listed.entries 0 (desk.list kind (pager.query token?)).2
       (.ok (.ofListed fetched.2.cancelled listed),
        (PageLoad.run (.ok listed) fetched.1 items).2, fetched.2)) := by
  simp only [loadPage, listPage, answered]
  simp only [Except.map, running, Bool.false_eq_true, if_false]

theorem loadPage_logged (pager : Pager) (kind : StoreKind σ) (token? : Option String)
    (items : PageItems) (desk : Desk σ) {listing : ObjectPage}
    (answered : (desk.list kind (pager.query token?)).1 = .ok listing)
    (running : (desk.list kind (pager.query token?)).2.cancelled = false) :
    pager.loadPage kind.logged token? items (desk.logged []) =
      ((pager.loadPage kind token? items desk).1, (pager.loadPage kind token? items desk).2.1,
        (pager.loadPage kind token? items desk).2.2.logged (.listing (pager.query token?) ::
          (ListedPage.ofListing listing).entries.map fun entry => .object entry.key)) := by
  rw [pager.loadPage_answered kind token? items desk answered running,
    pager.loadPage_answered kind.logged token? items (desk.logged []) answered running]
  simp only [desk.list_logged, fetchAll_logged, List.nil_append]
  rfl

theorem fetches_eq_keys (pager : Pager) (kind : StoreKind σ) (token? : Option String)
    (items : PageItems) (desk : Desk σ) {listing : ObjectPage}
    (answered : (desk.list kind (pager.query token?)).1 = .ok listing)
    (running : (desk.list kind (pager.query token?)).2.cancelled = false) :
    pager.fetches kind token? items desk = (ListedPage.ofListing listing).keys := by
  have keys (entries : List ObjectEntry) :
      (entries.map fun entry => Asked.object entry.key).filterMap Asked.key? =
        entries.map (·.key) := by
    rw [List.filterMap_map]
    exact congrFun List.filterMap_eq_map entries
  rw [fetches, pager.loadPage_logged kind token? items desk answered running]
  exact keys _

end Pager

def StoreCall.key? : StoreCall → Option String
  | .fetch _ _ key => some key
  | _ => none

namespace Dashboard

theorem keys_fetchCalls (serial : Nat) (listed : ListedPage) :
    (fetchCalls serial listed).map StoreCall.key? = listed.keys.map some := by
  have keys := congrArg (List.map some) (List.zipIdx_map_fst 0 listed.keys)
  rw [List.map_map] at keys
  rw [fetchCalls, List.map_map]
  exact keys

theorem calls_place (dashboard : Dashboard) {load : Load} {listed : ListedPage}
    (found : dashboard.load? load.serial = some load) (stage : load.stage = .listed listed)
    (mounted : dashboard.unmounted = false) :
    (dashboard.step (.place load.serial)).2 = fetchCalls load.serial listed := by
  simp [step, found, place, stage, mounted]

end Dashboard

namespace PageItems

theorem distinct_sublist (keys : List String) : (distinct keys).Sublist keys := by
  induction keys with
  | nil => exact .slnil
  | cons key keys ih => exact (List.filter_sublist.trans ih).cons_cons key

theorem length_distinct_eq_iff (keys : List String) :
    (distinct keys).length = keys.length ↔ keys.Nodup := by
  constructor
  · intro same
    exact (distinct_sublist keys).eq_of_length same ▸ nodup_distinct keys
  · intro nodup
    rw [distinct_of_nodup nodup]

theorem length_ofKeys (keys : List String) : (ofKeys keys).items.length = (distinct keys).length :=
  List.length_map _

end PageItems

namespace ListedPage

theorem count_keys (listing : ObjectPage) (key : String) :
    (ofListing listing).keys.count key =
      listing.entries.countP fun entry => entry.key = key && isReportKey key := by
  rw [keys, ofListing, List.count, List.countP_map, List.countP_filter]
  refine List.countP_congr fun entry _ => ?_
  simp only [Function.comp, ObjectEntry.isReport, Bool.and_eq_true, beq_iff_eq, decide_eq_true_eq]
  exact and_congr_right fun same => by rw [same]

end ListedPage

namespace Pager

/-- A load that is not cancelled fetches each report key as often as it is listed and no other key,
at a desk and on a dashboard. There are as many fetches as items, and one for each key, exactly
when no report key is listed twice. -/
theorem fetches_follow_entries (pager : Pager) (kind : StoreKind σ) (token? : Option String)
    (items : PageItems) (desk : Desk σ) (listing : ObjectPage)
    (answered : (desk.list kind (pager.query token?)).1 = .ok listing)
    (running : (desk.list kind (pager.query token?)).2.cancelled = false) :
    let fetches := pager.fetches kind token? items desk
    let keys := (ListedPage.ofListing listing).keys
    let placeholders := PageItems.ofKeys keys
    (∀ key, fetches.count key =
      listing.entries.countP fun entry => entry.key = key && isReportKey key) ∧
    (∀ dashboard : Dashboard, ∀ load, dashboard.load? load.serial = some load →
      load.stage = .listed (.ofListing listing) → dashboard.unmounted = false →
      (dashboard.step (.place load.serial)).2.map StoreCall.key? = fetches.map some) ∧
    placeholders.keys.Nodup ∧ (∀ key, key ∈ placeholders.keys ↔ key ∈ fetches) ∧
    placeholders.items.length ≤ fetches.length ∧
    (placeholders.items.length = fetches.length ↔ keys.Nodup) ∧
    ((∀ key ∈ placeholders.keys, fetches.count key = 1) ↔ keys.Nodup) := by
  intro fetches keys placeholders
  have made : fetches = keys := pager.fetches_eq_keys kind token? items desk answered running
  have shown : placeholders.keys = PageItems.distinct keys := PageItems.keys_ofKeys keys
  have counted : placeholders.items.length = (PageItems.distinct keys).length :=
    PageItems.length_ofKeys keys
  rw [made, shown, counted]
  refine ⟨ListedPage.count_keys listing, ?_, PageItems.nodup_distinct keys, ?_, ?_, ?_, ?_⟩
  · intro dashboard load found stage mounted
    rw [dashboard.calls_place found stage mounted]
    exact Dashboard.keys_fetchCalls load.serial _
  · exact fun key => PageItems.mem_distinct key keys
  · exact (PageItems.distinct_sublist keys).length_le
  · exact PageItems.length_distinct_eq_iff keys
  · rw [List.nodup_iff_count_eq_one]
    simp only [PageItems.mem_distinct]

def listingOnly (listing : ObjectPage) : StoreKind Unit where
  location _ := "store"
  list _ _ := ({ answer := fun _ => .ok listing }, ())
  fetch _ key := ({ answer := fun _ => .error (.notFound key) }, ())

theorem key_listed_twice_is_fetched_twice :
    let listing : ObjectPage := ⟨[⟨"a.json", none⟩, ⟨"b.txt", none⟩, ⟨"a.json", none⟩], none⟩
    let loaded := (ofPrefix "").loadPage (listingOnly listing) none .empty ⟨(), false⟩
    let fetches := (ofPrefix "").fetches (listingOnly listing) none .empty ⟨(), false⟩
    loaded.1 = .ok (.complete none) ∧ loaded.2.2.cancelled = false ∧
      fetches = ["a.json", "a.json"] ∧ loaded.2.1.items.length = 1 ∧
      ¬ (∀ key ∈ loaded.2.1.keys, fetches.count key = 1) := by
  decide +kernel

/-- With every key listed once, reports and other objects mixed. -/
theorem keys_listed_once_are_fetched_once :
    let listing : ObjectPage := ⟨[⟨"a.json", none⟩, ⟨"b.txt", none⟩, ⟨"c.json", none⟩], some "3"⟩
    let fetches := (ofPrefix "").fetches (listingOnly listing) none .empty ⟨(), false⟩
    (ListedPage.ofListing listing).keys.Nodup ∧
      ∀ key ∈ ["a.json", "c.json"], fetches.count key = 1 := by
  intro listing fetches
  have once : (ListedPage.ofListing listing).keys.Nodup := by decide +kernel
  have follow := fetches_follow_entries (ofPrefix "") (listingOnly listing) none .empty ⟨(), false⟩
    listing rfl rfl
  refine ⟨once, ?_⟩
  have shown : (PageItems.ofKeys (ListedPage.ofListing listing).keys).keys = ["a.json", "c.json"] := by
    decide +kernel
  exact shown ▸ follow.2.2.2.2.2.2.mpr once

end Pager

end CrawlBoard
