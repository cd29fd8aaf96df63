import CrawlBoard.Dashboard.Snapshot
import CrawlBoard.Proofs.Dashboard.StoredReports
/-!
The number of pages that snapshots show, beside the number of pages there are. The one divides the
reports by the size of a page, the other all objects; they agree while the pages of the reports
have room for the objects that are no reports.
-/

namespace CrawlBoard

namespace Pager

/-- Pages for so many objects; an empty listing still has one. -/
def pagesFor (pager : Pager) (objects : Nat) : Nat :=
  max 1 ((objects + pager.pageSize - 1) / pager.pageSize)

theorem pagesFor_pos (pager : Pager) (objects : Nat) : 0 < pager.pagesFor objects :=
  Nat.le_max_left ..

theorem succ_lt_pagesFor_iff (pager : Pager) (index objects : Nat) :
    index + 1 < pager.pagesFor objects ↔ (index + 1) * pager.pageSize < objects := by
  have positive := pager.pageSize_pos
  have divided : index + 2 ≤ (objects + pager.pageSize - 1) / pager.pageSize ↔
      (index + 2) * pager.pageSize ≤ objects + pager.pageSize - 1 :=
    Nat.le_div_iff_mul_le positive
  have next : (index + 2) * pager.pageSize = (index + 1) * pager.pageSize + pager.pageSize :=
    Nat.succ_mul ..
  unfold pagesFor
  omega

theorem pagesFor_le_iff (pager : Pager) {pages : Nat} (positive : 0 < pages) (objects : Nat) :
    pager.pagesFor objects ≤ pages ↔ objects ≤ pages * pager.pageSize := by
  obtain ⟨index, rfl⟩ := Nat.exists_eq_add_of_lt positive
  have more := pager.succ_lt_pagesFor_iff index objects
  rw [Nat.zero_add]
  omega

theorem pagesFor_mono (pager : Pager) {fewer more : Nat} (le : fewer ≤ more) :
    pager.pagesFor fewer ≤ pager.pagesFor more := by
  have positive := pager.pagesFor_pos more
  have room := (pager.pagesFor_le_iff positive more).mp (Nat.le_refl _)
  exact (pager.pagesFor_le_iff positive fewer).mpr (Nat.le_trans le room)

end Pager

namespace Replies.Accounted

variable {store : MemoryStore} {pager : Pager} {dashboard : Dashboard}

theorem index_lt_pagesFor (accounted : (store.fixed.replies pager).Accounted dashboard)
    {index : Nat} {page : OpenPage} (found : dashboard.page? index = some page) :
    index < pager.pagesFor (store.under pager.keyPrefix).length := by
  cases index with
  | zero => exact pager.pagesFor_pos _
  | succ index =>
      have coherent := accounted.coherent
      have inside := coherent.lt_of_page found
      obtain ⟨before, foundBefore⟩ := coherent.page_of_lt (Nat.lt_of_succ_lt inside)
      obtain ⟨token, ready⟩ := coherent.chained index before foundBefore inside
      have more := (accounted.ready_page foundBefore ready).2.mp rfl
      exact (pager.succ_lt_pagesFor_iff ..).mpr more

theorem next?_iff (accounted : (store.fixed.replies pager).Accounted dashboard)
    {index : Nat} {page : OpenPage} {next? : Option String}
    (found : dashboard.page? index = some page) (ready : page.status = .ready next?) :
    (next?.isSome ↔ index + 1 < pager.pagesFor (store.under pager.keyPrefix).length) ∧
      (next? = none ↔ index + 1 = pager.pagesFor (store.under pager.keyPrefix).length) := by
  have bound := accounted.index_lt_pagesFor found
  have more := (accounted.ready_page found ready).2.trans (pager.succ_lt_pagesFor_iff ..).symm
  refine ⟨more, ?_⟩
  rw [← Option.not_isSome_iff_eq_none, more]
  omega

end Replies.Accounted

namespace Dashboard

theorem pager_runAt (store : FixedStore) (dashboard : Dashboard) (events : List Event) :
    (dashboard.runAt store events).pager = dashboard.pager :=
  runAt_keeps dashboard (fun later => later.pager = dashboard.pager)
    (fun _ _ _ _ same change _ => (pager_of_change change).trans same) rfl events

theorem snapshotBetween_eq_some {first later : Dashboard} {index : Nat} {shown : Snapshot}
    (read : first.snapshotBetween later index = some shown) :
    ∃ page, first.page? index = some page ∧ shown.hasNext = page.status.next?.isSome ∧
      shown.pages? = later.total.known?.map later.pager.pagesFor := by
  obtain ⟨page, found, rfl⟩ := Option.map_eq_some_iff.mp read
  exact ⟨page, found, rfl, rfl⟩

theorem next?_isSome_iff (status : PageStatus) :
    status.next?.isSome ↔ ∃ token, status = .ready (some token) := by
  cases status with
  | ready next? => cases next? <;> simp [PageStatus.next?]
  | _ => simp [PageStatus.next?]

/-- Some page with a successor is the last one of a total below the number of pages, as soon as
the page is ready at which that total ends. -/
theorem Coherent.exists_beyond_iff {dashboard : Dashboard} (coherent : Coherent dashboard)
    {pages total : Nat} (positive : 0 < total)
    (chain : ∀ index page next?, dashboard.page? index = some page → page.status = .ready next? →
      (next?.isSome ↔ index + 1 < pages)) :
    (∃ index page token, dashboard.page? index = some page ∧ page.status = .ready (some token) ∧
        total ≤ index + 1) ↔
      total < pages ∧ ∃ page next?, dashboard.page? (total - 1) = some page ∧
        page.status = .ready next? := by
  constructor
  · rintro ⟨index, page, token, found, ready, le⟩
    have more := (chain index page _ found ready).mp rfl
    refine ⟨by omega, ?_⟩
    by_cases same : index = total - 1
    · exact ⟨page, _, same ▸ found, ready⟩
    · have inside := coherent.lt_of_page found
      obtain ⟨before, foundBefore⟩ :=
        coherent.page_of_lt (by omega : total - 1 < dashboard.pages.length)
      obtain ⟨given, readyBefore⟩ := coherent.chained (total - 1) before foundBefore (by omega)
      exact ⟨before, _, foundBefore, readyBefore⟩
  · rintro ⟨less, page, next?, found, ready⟩
    have more := (chain (total - 1) page next? found ready).mpr (by omega)
    obtain ⟨token, rfl⟩ := Option.isSome_iff_exists.mp more
    exact ⟨total - 1, page, token, found, ready, by omega⟩

/-- Listings divide all objects into pages, the total divides the reports alone. So it never
exceeds the number of pages, and is that number exactly when its pages have room for all objects.
Otherwise the page at which it ends is shown with a successor, as soon as it is ready. -/
theorem page_total_divides_reports_alone (store : MemoryStore) (pager : Pager) (location : String)
    (probing : Bool) (events : List Event) :
    let dashboard := (mount pager location probing).runAt store.fixed events
    let objects := store.under pager.keyPrefix
    let pages := pager.pagesFor objects.length
    let total := pager.pagesFor (objects.countP ObjectEntry.isReport)
    (∀ index page next?, dashboard.page? index = some page → page.status = .ready next? →
      (next?.isSome ↔ index + 1 < pages) ∧ (next? = none ↔ index + 1 = pages)) ∧
    (∀ reports, dashboard.total = .known reports →
      (∀ first index shown, snapshotBetween first dashboard index = some shown →
        shown.pages? = some total) ∧
      ((∃ index shown, dashboard.snapshot index = some shown ∧ shown.hasNext ∧
          shown.pages?.any (· ≤ index + 1)) ↔
        total < pages ∧ ∃ page next?, dashboard.page? (total - 1) = some page ∧
          page.status = .ready next?)) ∧
    total ≤ pages ∧ (total = pages ↔ objects.length ≤ total * pager.pageSize) := by
  intro dashboard objects pages total
  have accounted := accounted_runAt store.fixed pager location probing events
  have counted := counted_runAt store pager location probing events
  have chain : ∀ index page next?, dashboard.page? index = some page →
      page.status = .ready next? →
      (next?.isSome ↔ index + 1 < pages) ∧ (next? = none ↔ index + 1 = pages) :=
    fun index page next? found ready => accounted.next?_iff found ready
  have le : total ≤ pages := pager.pagesFor_mono List.countP_le_length
  have room : pages ≤ total ↔ objects.length ≤ total * pager.pageSize :=
    pager.pagesFor_le_iff (pager.pagesFor_pos _) _
  refine ⟨chain, ?_, le, by omega⟩
  intro reports known
  have shownTotal (first : Dashboard) (index : Nat) (shown : Snapshot)
      (read : snapshotBetween first dashboard index = some shown) : shown.pages? = some total := by
    obtain ⟨page, _, _, shownPages⟩ := snapshotBetween_eq_some read
    rw [shownPages, known, pager_runAt, counted.total reports known]
    rfl
  refine ⟨shownTotal, ?_⟩
  rw [← accounted.coherent.exists_beyond_iff (pager.pagesFor_pos _)
    fun index page next? found ready => (chain index page next? found ready).1]
  -- From the snapshot to the page it was taken of, and back.
  constructor
  · rintro ⟨index, shown, read, next, last⟩
    obtain ⟨page, found, same, _⟩ := snapshotBetween_eq_some read
    obtain ⟨token, ready⟩ := (next?_isSome_iff page.status).mp (same ▸ next)
    rw [shownTotal _ _ _ read, Option.any_some, decide_eq_true_eq] at last
    exact ⟨index, page, token, found, ready, last⟩
  · rintro ⟨index, page, token, found, ready, last⟩
    have read : dashboard.snapshot index =
        some _ := congrArg (Option.map _) found
    refine ⟨index, _, read, ?_, ?_⟩
    · simp [ready, PageStatus.next?]
    · rw [shownTotal _ _ _ read, Option.any_some, decide_eq_true_eq]
      exact last

/-- One report behind an object that is none: the first of two pages calls itself the last. -/
theorem first_of_two_pages_is_labelled_last :
    let store := (MemoryStore.insert {} "a.txt" ⟨[], none⟩).insert "b.json" ⟨[], none⟩
    let dashboard := (mount { keyPrefix := "", pageSize := 1 } "store" false).runAt store.fixed
      [.askListing 0, .takeListing 0 (.ok {}), .place 0, .publish 0, .askCount,
        .takeCount (.ok {}), .publishCount, .command .next, .askListing 1,
        .takeListing 1 (.ok {}), .place 1, .takeFetch 1 0 (.error (.notFound "")), .publish 1]
    dashboard.total = .known 1 ∧
      (dashboard.page? 1).any (fun page => page.status = .ready none) ∧
      (dashboard.snapshot 0).any (fun shown => shown.hasNext && shown.pages? = some 1 &&
        pageLabel 0 shown.pages? = "Page 1 of 1") := by
  decide +kernel

/-- Two pages for three reports have room for one object more. -/
theorem total_with_room_is_number_of_pages :
    let store := (((MemoryStore.insert {} "a.json" ⟨[], none⟩).insert "b.txt" ⟨[], none⟩).insert
      "c.json" ⟨[], none⟩).insert "d.json" ⟨[], none⟩
    let pager : Pager := { keyPrefix := "", pageSize := 2 }
    let dashboard := (mount pager "store" false).runAt store.fixed
      [.askListing 0, .askCount, .takeListing 0 (.ok {}), .place 0, .takeCount (.ok {}),
        .publishCount, .takeFetch 0 0 (.error (.notFound "")), .publish 0]
    dashboard.total = .known 3 ∧ pager.pagesFor (store.under "").length = 2 ∧
      ∀ index shown, dashboard.snapshot index = some shown → shown.pages? = some 2 := by
  intro store pager dashboard
  have known : dashboard.total = .known 3 := by decide +kernel
  have divided := page_total_divides_reports_alone store pager "store" false
    [.askListing 0, .askCount, .takeListing 0 (.ok {}), .place 0, .takeCount (.ok {}),
      .publishCount, .takeFetch 0 0 (.error (.notFound "")), .publish 0]
  refine ⟨known, by decide +kernel, ?_⟩
  intro index shown read
  exact ((divided.2.1 3 known).1 dashboard index shown read).trans (by decide +kernel)

end Dashboard

end CrawlBoard
