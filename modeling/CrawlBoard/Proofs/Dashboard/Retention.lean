import CrawlBoard.Proofs.Dashboard.SettledPages
import Mathlib.Data.List.Flatten
/-!
What a run never takes back. Outcomes stay on their pages and settled figures stay as they are,
so that the loaded reports only grow, and the order of those that were there is kept.
-/

namespace CrawlBoard

namespace PageItems

def resolved (page : PageItems) : List Item := page.items.filter fun item => !item.isLoading

theorem reports_eq_filterMap_resolved (page : PageItems) :
    page.reports = page.resolved.filterMap Item.report? := by
  rw [reports, resolved, List.filterMap_filter]
  apply List.filterMap_congr
  intro item _
  cases status : item.status <;> simp [Item.isLoading, Item.report?, status]

theorem resolved_sublist_resolve (page : PageItems) (key : String) (outcome : Outcome) :
    page.resolved.Sublist (page.resolve key outcome).resolved := by
  obtain ⟨items⟩ := page
  simp only [resolved, resolve]
  induction items with
  | nil => exact .slnil
  | cons item rest ih =>
      cases loading : item.isLoading with
      | true =>
          rw [List.filter_cons_of_neg (by simp [loading]), List.map_cons]
          exact ih.trans ((List.sublist_cons_self ..).filter _)
      | false =>
          -- An outcome that comes too late leaves the item.
          have kept : (if item.key = key then item.resolve outcome else item) = item := by
            rw [Item.resolve_of_settled outcome loading, ite_self]
          simp only [List.map_cons, kept, List.filter_cons, loading, Bool.not_false, if_true]
          exact ih.cons_cons item

end PageItems

theorem PageLoad.resolved_sublist_take (load : PageLoad) (cancelled : Bool) (position : Nat)
    (answer : Except StoreError StoredObject) (items : PageItems) :
    items.resolved.Sublist (load.take cancelled position answer items).2.resolved := by
  unfold PageLoad.take
  split
  · split
    · exact List.Sublist.refl _
    · exact PageItems.resolved_sublist_resolve ..
  · exact List.Sublist.refl _

def Replies.unknown : Replies := ⟨fun _ _ _ => True, fun _ _ _ => True⟩

namespace Dashboard

/-- Every page stays open and holds on to its outcomes. -/
def Retains (before after : Dashboard) : Prop :=
  ∀ index page, before.page? index = some page → ∃ kept, after.page? index = some kept ∧
    page.items.resolved.Sublist kept.items.resolved

namespace Retains

variable {before between after : Dashboard} {event : Event}

theorem of_pages (same : ∀ index, after.page? index = before.page? index) :
    Retains before after :=
  fun index page found => ⟨page, (same index).trans found, List.Sublist.refl _⟩

theorem trans (first : Retains before between) (second : Retains between after) :
    Retains before after := by
  intro index page found
  obtain ⟨middle, foundMiddle, early⟩ := first index page found
  obtain ⟨kept, foundKept, late⟩ := second index middle foundMiddle
  exact ⟨kept, foundKept, early.trans late⟩

theorem updatePage (load : Load) (change : OpenPage → OpenPage)
    (holds : ∀ page, before.page? load.page = some page →
      page.items.resolved.Sublist (change page).items.resolved)
    (pages : ∀ index, after.page? index = (before.updatePage load change).page? index) :
    Retains before after := by
  intro index page found
  rw [pages, page?_updatePage, found]
  refine ⟨_, rfl, ?_⟩
  simp only
  split
  · rename_i own
    exact holds page (own.1 ▸ found)
  · exact List.Sublist.refl _

end Retains

theorem Change.retains {replies : Replies} {before after : Dashboard} {event : Event}
    (change : Change before event after) (accounted : replies.Accounted before) :
    Retains before after := by
  cases change with
  | start command opened token? mounted reachable vacant =>
      intro index page found
      rw [page?_startLoad]
      by_cases same : index = opened
      · subst same
        -- Only a page that failed is replaced, and it has nothing to lose.
        have failed := vacant page found
        cases status : page.status with
        | failed message =>
            rw [if_pos rfl, (accounted.failed_page found status).1]
            exact ⟨_, rfl, List.nil_sublist _⟩
        | _ => simp [status, PageStatus.isFailed] at failed
      · exact ⟨page, by rw [if_neg same, found], List.Sublist.refl _⟩
  | place load listed found stage mounted =>
      refine Retains.updatePage load _ ?_ (page?_placed before load listed)
      intro page foundPage
      have waiting := accounted.loads load (mem_of_load? found) page foundPage
      simp only [Replies.LoadAccounted, stage] at waiting
      rw [waiting.1]
      exact List.nil_sublist _
  | fetch load fetching position answer found stage =>
      refine Retains.updatePage load _ ?_ (page?_fetched before load fetching position answer)
      intro page _
      exact fetching.resolved_sublist_take ..
  | publish load status found verdict mounted =>
      refine Retains.updatePage load _ ?_ (page?_published before load status)
      intro page _
      exact List.Sublist.refl _
  | _ => exact .of_pages fun _ => rfl

theorem accounted_of_unknown {before after : Dashboard} {event : Event}
    (accounted : Replies.unknown.Accounted before) (change : Change before event after) :
    Replies.unknown.Accounted after := by
  refine accounted.change change ?_
  cases event with
  | takeListing serial answer => exact fun _ _ _ => trivial
  | takeFetch serial position answer => exact fun _ _ _ _ _ _ _ => trivial
  | _ => trivial

theorem retains_run {dashboard : Dashboard} (accounted : Replies.unknown.Accounted dashboard)
    (events : List Event) :
    Replies.unknown.Accounted (dashboard.run events) ∧
      Retains dashboard (dashboard.run events) := by
  refine run_keeps (fun later => Replies.unknown.Accounted later ∧ Retains dashboard later) ?_
    dashboard ⟨accounted, .of_pages fun _ => rfl⟩ events
  rintro before event after ⟨kept, retains⟩ change
  exact ⟨accounted_of_unknown kept change, retains.trans (change.retains kept)⟩

theorem Retains.length_le {before after : Dashboard} (retains : Retains before after)
    (coherent : Coherent before) (coherentAfter : Coherent after) :
    before.pages.length ≤ after.pages.length := by
  by_contra fewer
  obtain ⟨page, found⟩ := coherent.page_of_lt (Nat.lt_of_not_le fewer)
  obtain ⟨kept, foundKept, _⟩ := retains _ page found
  exact Nat.lt_irrefl _ (coherentAfter.lt_of_page foundKept)

def pageReports (dashboard : Dashboard) (index : Nat) : List Report :=
  ((dashboard.page? index).map fun page => page.items.reports).getD []

theorem Coherent.reports_eq {dashboard : Dashboard} (coherent : Coherent dashboard) :
    dashboard.reports = (List.range dashboard.pages.length).flatMap dashboard.pageReports := by
  refine coherent.flatMap_pages (fun page => page.items.reports) _ ?_
  intro index page found
  simp [pageReports, found]

theorem Retains.pageReports_sublist {before after : Dashboard} (retains : Retains before after)
    (index : Nat) : (before.pageReports index).Sublist (after.pageReports index) := by
  cases found : before.page? index with
  | none => simp [pageReports, found]
  | some page =>
      obtain ⟨kept, foundKept, held⟩ := retains index page found
      simp only [pageReports, found, foundKept, Option.map_some, Option.getD_some,
        PageItems.reports_eq_filterMap_resolved]
      exact held.filterMap _

theorem Retains.reports_sublist {before after : Dashboard} (retains : Retains before after)
    (coherent : Coherent before) (coherentAfter : Coherent after) :
    before.reports.Sublist after.reports := by
  rw [coherent.reports_eq, coherentAfter.reports_eq]
  have more := List.range_sublist.mpr (retains.length_le coherent coherentAfter)
  exact (List.Sublist.flatMap_right _ fun index _ => retains.pageReports_sublist index).trans
    (more.flatMap _)

structure Published (dashboard : Dashboard) : Prop where
  total : dashboard.total ≠ .counting → dashboard.count? = none
  sitemaps : dashboard.sitemaps? ≠ none → dashboard.probing = false

structure SameFigures (before after : Dashboard) : Prop where
  total : before.total ≠ .counting → after.total = before.total
  sitemaps : before.sitemaps? ≠ none → after.sitemaps? = before.sitemaps?

theorem Published.step {before : Dashboard} (published : Published before) (event : Event) :
    Published (before.step event).1 ∧ SameFigures before (before.step event).1 := by
  have change := step_change before event
  generalize stepped : (before.step event).1 = after at change ⊢
  cases change with
  | askCount pass counting =>
      refine ⟨⟨fun settled => ?_, published.sitemaps⟩, ⟨fun _ => rfl, fun _ => rfl⟩⟩
      exact nomatch counting.symm.trans (published.total settled)
  | takeCount answer =>
      refine ⟨⟨fun settled => ?_, published.sitemaps⟩, ⟨fun _ => rfl, fun _ => rfl⟩⟩
      simp [takeCount, published.total settled]
  | settleCount result ended =>
      refine ⟨⟨fun _ => rfl, published.sitemaps⟩, ⟨fun settled => ?_, fun _ => rfl⟩⟩
      exact nomatch ended.symm.trans (published.total settled)
  | settleProbe answer =>
      refine ⟨⟨published.total, fun _ => rfl⟩, ⟨fun _ => rfl, fun known => ?_⟩⟩
      -- No answer is awaited any more, so this one is not taken.
      have quiet := published.sitemaps known
      have same := congrArg Dashboard.sitemaps? stepped
      simpa [Dashboard.step, takeProbe, quiet] using same.symm
  | _ => exact ⟨{ published with }, ⟨fun _ => rfl, fun _ => rfl⟩⟩

theorem Published.run {dashboard : Dashboard} (published : Published dashboard)
    (events : List Event) :
    Published (dashboard.run events) ∧ SameFigures dashboard (dashboard.run events) := by
  refine run_keeps_of_steps (fun later => Published later ∧ SameFigures dashboard later) ?_
    ⟨published, ⟨fun _ => rfl, fun _ => rfl⟩⟩
  rintro before event _ ⟨kept, same⟩
  obtain ⟨next, step⟩ := kept.step event
  refine ⟨next, ⟨?_, ?_⟩⟩
  · intro settled
    have known := same.total settled
    exact (step.total (known ▸ settled)).trans known
  · intro settled
    have known := same.sitemaps settled
    exact (step.sitemaps (known ▸ settled)).trans known

theorem Published.mounted (pager : Pager) (location : String) (probing : Bool) :
    Published (mount pager location probing) :=
  ⟨fun settled => absurd rfl settled, fun known => absurd rfl known⟩

theorem keys_nodup {pager : Pager} {location : String} {probing : Bool} {events : List Event}
    {index : Nat} {page : OpenPage}
    (found : ((mount pager location probing).run events).page? index = some page) :
    page.items.keys.Nodup := by
  rcases (heard_run pager location probing events).2 index page found with none | shown
  · exact none ▸ List.nodup_nil
  · obtain ⟨_, _, _, keys⟩ := shown
    exact keys ▸ PageItems.nodup_distinct _

/-- Whatever a run does, every page stays open, an item that has been resolved keeps its outcome,
a page that is ready and a figure that is published stay as they are, and the loaded reports are
among the later ones in the same order. -/
theorem shown_results_stay (pager : Pager) (location : String) (probing : Bool)
    (events later : List Event) :
    let earlier := (mount pager location probing).run events
    let after := earlier.run later
    (∀ index page, earlier.page? index = some page → ∃ kept, after.page? index = some kept ∧
      (∀ key item, page.items.get? key = some item → item.isLoading = false →
        kept.items.get? key = some item) ∧
      ∀ next?, page.status = .ready next? → kept = page) ∧
    (earlier.total ≠ .counting → after.total = earlier.total) ∧
    (∀ sitemaps, earlier.sitemaps? = some sitemaps → after.sitemaps? = some sitemaps) ∧
    earlier.reports.Sublist after.reports := by
  intro earlier after
  have accounted : Replies.unknown.Accounted earlier := (retains_run (.mounted ..) events).1
  obtain ⟨accountedAfter, retains⟩ := retains_run accounted later
  have figures := ((Published.mounted pager location probing).run events).1.run later
  refine ⟨?_, figures.2.total, ?_,
    retains.reports_sublist accounted.coherent accountedAfter.coherent⟩
  · intro index page found
    obtain ⟨kept, foundKept, held⟩ := retains index page found
    refine ⟨kept, foundKept, ?_, ?_⟩
    · intro key item present settled
      obtain ⟨member, same⟩ := (PageItems.get?_eq_some_iff (keys_nodup found) key item).mp present
      have resolved : item ∈ page.items.resolved := List.mem_filter.mpr ⟨member, by simp [settled]⟩
      have foundLater : ((mount pager location probing).run (events ++ later)).page? index =
          some kept := by rw [run_append]; exact foundKept
      exact (PageItems.get?_eq_some_iff (keys_nodup foundLater) key item).mpr
        ⟨(List.mem_filter.mp (held.subset resolved)).1, same⟩
    · intro next? ready
      have same := accounted.coherent.ready_run later found ready
      exact Option.some.inj (foundKept.symm.trans same)
  · intro sitemaps known
    have present : earlier.sitemaps? ≠ none := by
      rw [known]
      exact nofun
    exact (figures.2.sitemaps present).trans known

/-- The first page is ready, and one of two reports of the second has been answered. -/
theorem answered_item_stays_while_its_page_is_finished :
    let events := [.askListing 0, .takeListing 0 (.ok ⟨[], some "t"⟩), .place 0, .publish 0,
      .command .next, .askListing 1,
      .takeListing 1 (.ok ⟨[⟨"a.json", none⟩, ⟨"b.json", none⟩], none⟩), .place 1,
      .takeFetch 1 1 (.error (.notFound "b.json")), .takeProbe (.ok (some 3)), .askCount,
      .takeCount (.error (.notFound "")), .publishCount]
    let later := [.takeFetch 1 0 (.error (.notFound "a.json")), .publish 1, .command .prev,
      .command .unmount]
    let earlier := (mount (.ofPrefix "") "store" true).run events
    let after := earlier.run later
    (∃ ready, earlier.page? 0 = some ready ∧ after.page? 0 = some ready) ∧
    (∃ page kept item, earlier.page? 1 = some page ∧ page.items.get? "b.json" = some item ∧
      after.page? 1 = some kept ∧ kept.items.get? "b.json" = some item) ∧
    after.total = .unavailable ∧ after.sitemaps? = some 3 ∧
    earlier.reports.Sublist after.reports := by
  intro events later earlier after
  obtain ⟨pages, total, sitemaps, reports⟩ :=
    shown_results_stay (.ofPrefix "") "store" true events later
  have firstReady : (earlier.page? 0).any (fun page => page.status = .ready (some "t")) := by
    decide +kernel
  have secondAnswered : (earlier.page? 1).any (fun page =>
      (page.items.get? "b.json").any fun item => !item.isLoading) := by decide +kernel
  obtain ⟨first, foundFirst, ready⟩ := (Option.any_eq_true ..).mp firstReady
  obtain ⟨second, foundSecond, answered⟩ := (Option.any_eq_true ..).mp secondAnswered
  obtain ⟨item, present, settled⟩ := (Option.any_eq_true ..).mp answered
  obtain ⟨stays, foundStays, _, same⟩ := pages 0 first foundFirst
  obtain ⟨kept, foundKept, held, _⟩ := pages 1 second foundSecond
  refine ⟨⟨first, foundFirst, ?_⟩, ⟨second, kept, item, foundSecond, present, foundKept, ?_⟩, ?_,
    sitemaps 3 (by decide +kernel), reports⟩
  · rw [← same _ (of_decide_eq_true ready)]
    exact foundStays
  · exact held "b.json" item present (by simpa using settled)
  · have known : earlier.total = .unavailable := by decide +kernel
    have settled : earlier.total ≠ .counting := by rw [known]; exact nofun
    exact (total settled).trans known

end Dashboard

end CrawlBoard
