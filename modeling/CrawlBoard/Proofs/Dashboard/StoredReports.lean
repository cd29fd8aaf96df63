import CrawlBoard.Proofs.ByteOrder
import CrawlBoard.Proofs.Dashboard.Count
import CrawlBoard.Proofs.FetchedItems
/-!
A dashboard at a store in memory. Its pages cut the objects under the prefix into slices, and the
pass that counts them walks over slices of its own.
-/

namespace CrawlBoard

namespace MemoryStore

theorem encoded_keys_under_ordered (store : MemoryStore) (keyPrefix : String) :
    ((store.under keyPrefix).map fun entry => Utf8.encode entry.key).Pairwise (· < ·) := by
  have ordered := store.keys_under_ordered keyPrefix
  rw [List.pairwise_map] at ordered ⊢
  exact ordered.imp (Utf8.encode_lt_iff ..).mpr

def reportsOfPage (store : MemoryStore) (pager : Pager) (index : Nat) : List ObjectEntry :=
  (((store.under pager.keyPrefix).drop (index * pager.pageSize)).take pager.pageSize).filter
    ObjectEntry.isReport

theorem keys_reportsOfPage_nodup (store : MemoryStore) (pager : Pager) (index : Nat) :
    ((store.reportsOfPage pager index).map (·.key)).Nodup := by
  refine List.Pairwise.imp String.ne_of_lt ((store.keys_under_ordered pager.keyPrefix).sublist ?_)
  exact (List.filter_sublist.trans
    ((List.take_sublist ..).trans (List.drop_sublist ..))).map _

theorem flatMap_reportsOfPage (store : MemoryStore) (pager : Pager) (count : Nat)
    (all : (store.under pager.keyPrefix).length ≤ count * pager.pageSize) :
    (List.range count).flatMap (store.reportsOfPage pager) =
      store.reportsUnder pager.keyPrefix := by
  have slices := flatMap_slices (store.under pager.keyPrefix) pager.pageSize count
  rw [List.take_of_length_le all] at slices
  rw [reportsUnder, ← slices, List.filter_flatMap]
  rfl

end MemoryStore

/-- The report that an object holds, if its body can be read as one. -/
def MemoryObject.report? (object : MemoryObject) : Option Report :=
  if object.body.all Blank.isAsciiBlank then none
  else (Report.parse object.body).toOption.map (·.stamped object.updated?)

namespace MemoryStore

/-- Objects under the prefix that have the name of a report and can be fetched. -/
def fetchable (store : MemoryStore) (keyPrefix : String) : List MemoryObject :=
  (store.objects.filter fun (key, _) =>
    keyPrefix.toList.isPrefixOf key.toList && isReportKey key && !store.failing.contains key).map (·.2)

theorem fetched_stored (store : MemoryStore) {key : String} {object : MemoryObject}
    (stored : (key, object) ∈ store.objects) :
    (Pager.fetched ⟨key, object.updated?⟩ (store.fetch key)).toOption =
      if store.failing.contains key then none else object.report? := by
  have distinct : (store.objects.map (·.1)).Nodup :=
    List.Pairwise.imp String.ne_of_lt (List.pairwise_map.mpr store.ordered)
  rw [fetch, Lookup.lookup_eq_some_of_mem distinct stored]
  split
  · rfl
  · simp only [Pager.fetched, Pager.report, MemoryObject.report?]
    split
    · rfl
    · cases Report.parse object.body with
      | error failure => rfl
      | ok parsed => exact congrArg some (Pager.stamped_eq parsed none object.updated?)

theorem filterMap_fetched (store : MemoryStore) (keyPrefix : String) :
    (store.reportsUnder keyPrefix).filterMap
        (fun entry => (Pager.fetched entry (store.fetch entry.key)).toOption) =
      (store.fetchable keyPrefix).filterMap MemoryObject.report? := by
  rw [reportsUnder, under, List.filter_map, List.filterMap_map, List.filter_filter, fetchable,
    List.filterMap_map, List.filterMap_filter, List.filterMap_filter]
  refine List.filterMap_congr fun stored member => ?_
  have gives := store.fetched_stored member
  simp only [Function.comp_apply, ObjectEntry.isReport]
  rw [gives]
  cases store.failing.contains stored.1 <;> simp [and_comm]

end MemoryStore

namespace Replies.Accounted

variable {store : MemoryStore} {pager : Pager} {dashboard : Dashboard}

theorem start_of_entrance (accounted : (store.fixed.replies pager).Accounted dashboard)
    {index : Nat} {token? : Option String} (entrance : dashboard.entrance? index = some token?)
    {start : Nat} (read : MemoryStore.start token? = .ok start) :
    start = index * pager.pageSize := by
  induction index generalizing token? start with
  | zero =>
      cases entrance
      cases read
      exact (Nat.zero_mul _).symm
  | succ index ih =>
      obtain ⟨page, token, found, ready, rfl⟩ := (Dashboard.entrance?_succ ..).mp entrance
      obtain ⟨before?, listing, entered, listed, same, _⟩ := accounted.listing_of_ready found ready
      obtain ⟨first, readFirst, rfl⟩ := MemoryStore.list_ok listed
      obtain rfl := ih entered readFirst
      rw [MemoryStore.next?_page] at same
      split at same
      · obtain rfl := Option.some.inj same
        rw [MemoryStore.start_toString read, Nat.succ_mul]
        rfl
      · cases same

theorem ready_page (accounted : (store.fixed.replies pager).Accounted dashboard)
    {index : Nat} {page : OpenPage} {next? : Option String}
    (found : dashboard.page? index = some page) (ready : page.status = .ready next?) :
    page.items.items = (store.reportsOfPage pager index).map store.fixed.item ∧
      (next?.isSome ↔ (index + 1) * pager.pageSize < (store.under pager.keyPrefix).length) := by
  obtain ⟨token?, listing, entrance, listed, rfl, recorded⟩ :=
    accounted.listing_of_ready found ready
  obtain ⟨start, read, rfl⟩ := MemoryStore.list_ok listed
  obtain rfl := accounted.start_of_entrance entrance read
  have nodup : (ListedPage.ofListing (MemoryStore.page (store.under pager.keyPrefix)
      (index * pager.pageSize) pager.pageSize)).keys.Nodup :=
    store.keys_reportsOfPage_nodup pager index
  refine ⟨FixedStore.items_of_recorded nodup recorded, ?_⟩
  rw [Nat.succ_mul]
  exact MemoryStore.isSome_next?_page ..

theorem items_of_complete (accounted : (store.fixed.replies pager).Accounted dashboard)
    {last : Nat} {lastPage : OpenPage} (foundLast : dashboard.page? last = some lastPage)
    (complete : lastPage.status = .ready none) :
    (dashboard.pages.flatMap fun entry => entry.2.items.items) =
      (store.reportsUnder pager.keyPrefix).map store.fixed.item := by
  have coherent := accounted.coherent
  have length : dashboard.pages.length = last + 1 :=
    coherent.length_of_last foundLast (by rw [complete]; rfl)
  -- Every page before the last one is ready, since the pages form a chain.
  have pages (index : Nat) (page : OpenPage) (found : dashboard.page? index = some page) :
      page.items.items = (store.reportsOfPage pager index).map store.fixed.item := by
    by_cases same : index = last
    · obtain rfl : page = lastPage := Option.some.inj (found.symm.trans (same ▸ foundLast))
      exact (accounted.ready_page found complete).1
    · have inside := coherent.lt_of_page found
      obtain ⟨token, ready⟩ := coherent.chained index page found (by omega)
      exact (accounted.ready_page found ready).1
  have none_follow : (store.under pager.keyPrefix).length ≤ (last + 1) * pager.pageSize := by
    have more := (accounted.ready_page foundLast complete).2
    simpa using more
  calc
    (dashboard.pages.flatMap fun entry => entry.2.items.items)
        = (List.range (last + 1)).flatMap fun index =>
            (store.reportsOfPage pager index).map store.fixed.item := by
      rw [← length]
      exact coherent.flatMap_pages (fun page => page.items.items) _ pages
    _ = ((List.range (last + 1)).flatMap (store.reportsOfPage pager)).map store.fixed.item :=
      List.map_flatMap.symm
    _ = (store.reportsUnder pager.keyPrefix).map store.fixed.item := by
      rw [store.flatMap_reportsOfPage pager (last + 1) none_follow]

theorem keys_of_ready (accounted : (store.fixed.replies pager).Accounted dashboard)
    {index : Nat} {page : OpenPage} {next? : Option String}
    (found : dashboard.page? index = some page) (ready : page.status = .ready next?) :
    page.items.keys = (store.reportsOfPage pager index).map (·.key) := by
  rw [PageItems.keys, (accounted.ready_page found ready).1, List.map_map]
  rfl

theorem keys_of_complete (accounted : (store.fixed.replies pager).Accounted dashboard)
    {last : Nat} {page : OpenPage} (found : dashboard.page? last = some page)
    (complete : page.status = .ready none) :
    (dashboard.pages.flatMap fun entry => entry.2.items.keys) =
      (store.reportsUnder pager.keyPrefix).map (·.key) := by
  calc
    (dashboard.pages.flatMap fun entry => entry.2.items.keys)
        = (dashboard.pages.flatMap fun entry => entry.2.items.items).map (·.key) :=
      List.map_flatMap.symm
    _ = (store.reportsUnder pager.keyPrefix).map (·.key) := by
      rw [accounted.items_of_complete found complete, List.map_map]
      rfl

theorem reports_of_complete (accounted : (store.fixed.replies pager).Accounted dashboard)
    {last : Nat} {page : OpenPage} (found : dashboard.page? last = some page)
    (complete : page.status = .ready none) :
    dashboard.reports = (store.fetchable pager.keyPrefix).filterMap MemoryObject.report? := by
  calc
    dashboard.reports
        = (dashboard.pages.flatMap fun entry => entry.2.items.items).filterMap Item.report? :=
      List.filterMap_flatMap.symm
    _ = (store.reportsUnder pager.keyPrefix).filterMap fun entry =>
          (store.fixed.item entry).report? := by
      rw [accounted.items_of_complete found complete, List.filterMap_map]
      rfl
    _ = (store.reportsUnder pager.keyPrefix).filterMap fun entry =>
          (Pager.fetched entry (store.fetch entry.key)).toOption := by
      simp only [store.fixed.report?_item]
      rfl
    _ = _ := store.filterMap_fetched pager.keyPrefix

theorem total_of_complete (accounted : (store.fixed.replies pager).Accounted dashboard)
    (counted : Dashboard.Counted (store.under pager.keyPrefix) dashboard)
    {last : Nat} {page : OpenPage} (found : dashboard.page? last = some page)
    (complete : page.status = .ready none) {total : Nat} (known : dashboard.total = .known total) :
    total = (dashboard.pages.flatMap fun entry => entry.2.items.items).length := by
  calc
    total = (store.reportsUnder pager.keyPrefix).length :=
      (counted.total total known).trans List.countP_eq_length_filter
    _ = (dashboard.pages.flatMap fun entry => entry.2.items.items).length := by
      rw [accounted.items_of_complete found complete, List.length_map]

end Replies.Accounted

namespace Dashboard

/-- The pages that are ready hold the reports of consecutive slices of the objects under the
prefix, in the order of the bytes of their keys. Once the last one is ready they hold every report
once, the loaded reports do not depend on the size of a page, and a total that is known is the
number of items. -/
theorem pages_partition_stored_reports (store : MemoryStore) (pager : Pager) (location : String)
    (probing : Bool) (events : List Event) :
    let dashboard := (mount pager location probing).runAt store.fixed events
    let objects := store.under pager.keyPrefix
    let reports := objects.filter ObjectEntry.isReport
    (objects.map fun entry => Utf8.encode entry.key).Pairwise (· < ·) ∧
    (∀ key, key ∈ objects.map (·.key) ↔
      key ∈ store.objects.map (·.1) ∧ pager.keyPrefix.toList.isPrefixOf key.toList) ∧
    (∀ index page next?, dashboard.page? index = some page → page.status = .ready next? →
      page.items.keys = (((objects.drop (index * pager.pageSize)).take pager.pageSize).filter
        ObjectEntry.isReport).map (·.key) ∧
      (next?.isSome ↔ (index + 1) * pager.pageSize < objects.length)) ∧
    (∀ last page, dashboard.page? last = some page → page.status = .ready none →
      (dashboard.pages.flatMap fun entry => entry.2.items.keys) = reports.map (·.key) ∧
      dashboard.reports = (store.fetchable pager.keyPrefix).filterMap MemoryObject.report? ∧
      ∀ total, dashboard.total = .known total →
        total = (dashboard.pages.flatMap fun entry => entry.2.items.items).length) := by
  intro dashboard objects reports
  have accounted := accounted_runAt store.fixed pager location probing events
  have counted := counted_runAt store pager location probing events
  refine ⟨store.encoded_keys_under_ordered pager.keyPrefix, ?_, ?_, ?_⟩
  · intro key
    rw [store.keys_under, List.mem_filter]
  · intro index page next? found ready
    exact ⟨accounted.keys_of_ready found ready, (accounted.ready_page found ready).2⟩
  · intro last page found complete
    exact ⟨accounted.keys_of_complete found complete, accounted.reports_of_complete found complete,
      fun total known => accounted.total_of_complete counted found complete known⟩

/-- Two pages of four objects, walked while the objects are counted. One report can be read, one
cannot, and a third cannot be fetched. -/
theorem last_page_of_walk_completes_stored_reports :
    let report := Utf8.encode "\x7b\"SitemapName\":\"a\"\x7d"
    let readable := (MemoryStore.insert {} "c.json" ⟨Utf8.encode "no report", none⟩).insert "a.json"
      ⟨report, none⟩
    let store := { (readable.insert "b.txt" ⟨[], none⟩).insert "d.json" ⟨report, none⟩ with
      failing := ["d.json"] }
    let dashboard := (mount { keyPrefix := "", pageSize := 2 } "store" false).runAt store.fixed
      [.askListing 0, .takeListing 0 (.ok {}), .place 0, .takeFetch 0 0 (.error (.notFound "")),
        .publish 0, .command .next, .askCount, .askListing 1, .takeCount (.ok {}),
        .takeListing 1 (.ok {}), .place 1, .publishCount, .takeFetch 1 1 (.error (.notFound "")),
        .takeFetch 1 0 (.error (.notFound "")), .publish 1]
    (dashboard.page? 1).any (fun page => page.status = .ready none) ∧
      dashboard.total = .known 3 ∧
      (dashboard.pages.flatMap fun entry => entry.2.items.keys) = ["a.json", "c.json", "d.json"] ∧
      dashboard.reports.map (fun report => (report.sitemap, report.lastModified?)) =
        [("a", some "Unknown")] := by
  intro report readable store dashboard
  have complete : (dashboard.page? 1).any (fun page => page.status = .ready none) := by
    decide +kernel
  obtain ⟨page, found, ready⟩ := Option.any_eq_true .. |>.mp complete
  obtain ⟨keys, reports, -⟩ := (pages_partition_stored_reports store
    { keyPrefix := "", pageSize := 2 } "store" false _).2.2.2 1 page found (of_decide_eq_true ready)
  refine ⟨complete, by decide +kernel, keys.trans (by decide +kernel), ?_⟩
  rw [reports]
  decide +kernel

end Dashboard

end CrawlBoard
