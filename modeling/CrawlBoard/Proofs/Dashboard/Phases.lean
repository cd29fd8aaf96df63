import CrawlBoard.Dashboard.Snapshot
import CrawlBoard.Proofs.Dashboard.Starts
/-!
The phases along a run. The phase is counting as long as the total is open and nothing has been
shown, and nothing has been shown as long as the first page is loading. That page can be loading
once more after its failure has been shown, and this is the one way back.
-/

namespace CrawlBoard.Dashboard

variable {dashboard : Dashboard}

/-- The first page has failed, and reports are still being counted. -/
structure FailedEarly (dashboard : Dashboard) : Prop where
  mounted : dashboard.unmounted = false
  counting : dashboard.total = .counting
  failed : ∃ page message, dashboard.page? 0 = some page ∧ page.status = .failed message

theorem anyShown_of_page {index : Nat} {page : OpenPage} (found : dashboard.page? index = some page)
    (settled : page.status ≠ .loading) : dashboard.anyShown = true :=
  List.any_eq_true.mpr ⟨(index, page), Lookup.mem_of_lookup_eq_some found,
    by simpa [PageStatus.isLoading] using settled⟩

theorem step_of_failedEarly (failedEarly : FailedEarly dashboard) :
    (dashboard.step (.command (.navigate 0))).1 = dashboard.startLoad 0 none := by
  obtain ⟨mounted, _, page, message, found, failed⟩ := failedEarly
  have moved : dashboard.perform (.navigate 0) = .ok (dashboard.startLoad 0 none) := by
    simp [perform, navigate, mounted, found, failed, PageStatus.isFailed, entrance?]
  rw [step_of_ok moved]

namespace Coherent

theorem anyShown_eq_false_iff (coherent : Coherent dashboard) :
    dashboard.anyShown = false ↔
      ∃ page, dashboard.page? 0 = some page ∧ page.status = .loading := by
  constructor
  · intro hidden
    obtain ⟨page, found⟩ := coherent.page_of_lt (Nat.zero_lt_of_lt coherent.current_lt)
    refine ⟨page, found, ?_⟩
    by_contra settled
    simp [anyShown_of_page found settled] at hidden
  · -- No other page is opened before the first one is ready.
    rintro ⟨page, found, loading⟩
    have only := coherent.length_of_last found (by rw [loading]; rfl)
    have distinct : (dashboard.pages.map (·.1)).Nodup := coherent.indices ▸ List.nodup_range
    refine List.any_eq_false.mpr ?_
    rintro ⟨index, present⟩ member
    have foundPresent := Lookup.lookup_eq_some_of_mem distinct member
    have inside := coherent.lt_of_page foundPresent
    obtain rfl : index = 0 := by omega
    obtain rfl : page = present := Option.some.inj (found.symm.trans foundPresent)
    simp [PageStatus.isLoading, loading]

theorem phase_eq_counting_iff (coherent : Coherent dashboard) :
    dashboard.phase = .counting ↔ dashboard.total = .counting ∧ dashboard.anyShown = false := by
  obtain ⟨page, found⟩ := coherent.page_of_lt coherent.current_lt
  by_cases loading : page.status = .loading
  · simp [phase, phaseOf, found, PageStatus.isLoading, loading]
  · simp [phase, phaseOf, found, PageStatus.isLoading, loading, anyShown_of_page found loading]

/-- What a page has shown stays, until it is gone to again after it has failed. -/
theorem settled_step (coherent : Coherent dashboard) (event : Event) {index : Nat} {page : OpenPage}
    (found : dashboard.page? index = some page) (settled : page.status ≠ .loading)
    (kept : index ∉ dashboard.retriedBy event) :
    (dashboard.step event).1.page? index = some page := by
  rcases coherent.settled_kept (step_change dashboard event) found settled with
    same | ⟨_, token?, restarted⟩
  · exact same
  · rcases coherent.step_cases event with ⟨continues, _⟩ | ⟨gone, _, began, _, retried⟩
    · have serial := continues.serial
      rw [restarted] at serial
      exact absurd serial (Nat.succ_ne_self _)
    · obtain rfl : gone = index := congrArg Dashboard.current (began.symm.trans restarted)
      simp [retried, found] at kept

theorem navigate_of_retried_first (coherent : Coherent dashboard) {event : Event}
    (again : 0 ∈ dashboard.retriedBy event) :
    event = .command (.navigate 0) ∧ dashboard.unmounted = false ∧
      ∃ page message, dashboard.page? 0 = some page ∧ page.status = .failed message := by
  cases event with
  | command command =>
      obtain ⟨reloads, requested, page, found, failed⟩ : command.reloads = true ∧
          0 ∈ dashboard.requestedBy (.command command) ∧
          ∃ page, dashboard.page? 0 = some page ∧ page.status.isFailed = true := by
        simpa [retriedBy, List.mem_filter, Option.any_eq_true] using again
      obtain ⟨performed, target⟩ : (dashboard.perform command).isOk = true ∧
          dashboard.target? command = some 0 := by
        simpa [requestedBy] using requested
      have only := coherent.length_of_last found (next?_of_failed failed)
      have current : dashboard.current = 0 := by
        have inside := coherent.current_lt
        omega
      refine ⟨?_, ?_, page, ?_⟩
      · cases command with
        | navigate page => simpa [target?] using target
        | visit page => cases reloads
        | next => simp [target?] at target
        | prev => simp [target?, current] at target
        | unmount => cases target
      · by_contra unmounted
        rw [perform_unmounted (by simpa using unmounted) target] at performed
        cases performed
      · cases status : page.status with
        | failed message => exact ⟨message, found, rfl⟩
        | _ => simp [status, PageStatus.isFailed] at failed
  | _ => cases again

theorem phase_step_iff (coherent : Coherent dashboard) (published : Published dashboard)
    (shown : dashboard.phase ≠ .counting) (event : Event) :
    (dashboard.step event).1.phase = .counting ↔
      event = .command (.navigate 0) ∧ FailedEarly dashboard := by
  have after : Coherent (dashboard.step event).1 := coherent.change (step_change dashboard event)
  constructor
  · intro counting
    obtain ⟨openAfter, hiddenAfter⟩ := after.phase_eq_counting_iff.mp counting
    have stillOpen : dashboard.total = .counting := by
      by_contra settled
      exact settled (((published.step event).2.total settled).symm.trans openAfter)
    obtain ⟨page, found⟩ := coherent.page_of_lt (Nat.zero_lt_of_lt coherent.current_lt)
    have settled : page.status ≠ .loading := by
      intro loading
      have hidden := coherent.anyShown_eq_false_iff.mpr ⟨page, found, loading⟩
      exact shown (coherent.phase_eq_counting_iff.mpr ⟨stillOpen, hidden⟩)
    have again : 0 ∈ dashboard.retriedBy event := by
      by_contra kept
      have same := coherent.settled_step event found settled kept
      simp [anyShown_of_page same settled] at hiddenAfter
    obtain ⟨navigated, mounted, failed⟩ := coherent.navigate_of_retried_first again
    exact ⟨navigated, mounted, stillOpen, failed⟩
  · rintro ⟨rfl, failedEarly⟩
    refine after.phase_eq_counting_iff.mpr ?_
    rw [after.anyShown_eq_false_iff, step_of_failedEarly failedEarly, page?_startLoad, if_pos rfl]
    exact ⟨failedEarly.counting, _, rfl, rfl⟩

theorem phase_run (coherent : Coherent dashboard) (published : Published dashboard)
    (shown : dashboard.phase ≠ .counting) {events : List Event}
    (kept : ∀ before, (before, .command (.navigate 0)) ∈ dashboard.steps events →
      ¬ FailedEarly before) :
    (dashboard.run events).phase ≠ .counting := by
  have invariant : Coherent (dashboard.run events) ∧ Published (dashboard.run events) ∧
      (dashboard.run events).phase ≠ .counting := by
    refine run_keeps_of_steps
      (fun later => Coherent later ∧ Published later ∧ later.phase ≠ .counting) ?_
      ⟨coherent, published, shown⟩
    rintro before event taken ⟨coherentBefore, publishedBefore, shownBefore⟩
    refine ⟨coherentBefore.change (step_change before event), (publishedBefore.step event).1, ?_⟩
    rw [Ne, coherentBefore.phase_step_iff publishedBefore shownBefore]
    rintro ⟨rfl, failedEarly⟩
    exact kept before taken failedEarly
  exact invariant.2.2

end Coherent

/-- The phase is counting exactly while the total is open and nothing has been shown. When it has
left that phase, one step alone leads back: going to the first page once more after that has failed
and before the total is settled. With a total that is settled, or a page that is ready, it never
does. -/
theorem counting_again_behind_early_failure (pager : Pager) (location : String) (probing : Bool)
    (events later : List Event) :
    let earlier := (mount pager location probing).run events
    let after := earlier.run later
    (earlier.phase = .counting ↔ earlier.total = .counting ∧ earlier.anyShown = false) ∧
    (earlier.phase ≠ .counting →
      (∀ event, (earlier.step event).1.phase = .counting ↔
        event = .command (.navigate 0) ∧ FailedEarly earlier) ∧
      (after.phase = .counting → ∃ before rest,
        later = before ++ .command (.navigate 0) :: rest ∧ FailedEarly (earlier.run before))) ∧
    ((earlier.total ≠ .counting ∨
        ∃ index page next?, earlier.page? index = some page ∧ page.status = .ready next?) →
      after.phase ≠ .counting) := by
  intro earlier after
  have coherent : Coherent earlier := (Coherent.mounted pager location probing).run events
  have published : Published earlier := ((Published.mounted pager location probing).run events).1
  refine ⟨coherent.phase_eq_counting_iff, fun shown => ⟨?_, ?_⟩, ?_⟩
  · exact coherent.phase_step_iff published shown
  · intro counting
    by_contra never
    refine coherent.phase_run published shown ?_ counting
    intro state taken failedEarly
    obtain ⟨before, rest, split, rfl⟩ := exists_split_of_mem_steps taken
    exact never ⟨before, rest, split, failedEarly⟩
  · intro ended counting
    obtain ⟨stillOpen, hidden⟩ := (coherent.run later).phase_eq_counting_iff.mp counting
    rcases ended with settled | ⟨index, page, next?, found, ready⟩
    · exact settled (((published.run later).2.total settled).symm.trans stillOpen)
    · have kept := coherent.ready_run later found ready
      simp [anyShown_of_page kept (by simp [ready])] at hidden

/-- The first listing is refused while the counting has not begun, and asked for again. -/
theorem phase_counts_again_after_failure :
    let failed := (mount (.ofPrefix "") "store" false).run
      [.askListing 0, .takeListing 0 (.error (.notFound "")), .publish 0]
    let again := failed.run [.command (.navigate 0)]
    failed.phase = .pageReady ∧ (failed.snapshot 0).any (·.error?.isSome) ∧
      again.phase = .counting ∧ ¬ (failed.phase ≠ .counting → again.phase ≠ .counting) := by
  decide +kernel

/-- The page that was refused is asked for again before the total is settled, and after. -/
theorem retry_before_and_after_total :
    let refused := [.askListing 0, .takeListing 0 (.error (.notFound "")), .publish 0]
    let counted := [.askCount, .takeCount (.ok ⟨[⟨"a.json", none⟩], none⟩), .publishCount]
    let mounted := mount (.ofPrefix "") "store" false
    let failed := mounted.run refused
    let settled := mounted.run (refused ++ counted)
    let again := [.command (.navigate 0), .askListing 1]
    failed.phase ≠ .counting ∧ (failed.step (.command (.navigate 0))).1.phase = .counting ∧
      (∃ before rest, again = before ++ .command (.navigate 0) :: rest ∧
        FailedEarly (failed.run before)) ∧
      settled.total ≠ .counting ∧ (settled.run again).phase ≠ .counting := by
  intro refused counted mounted failed settled again
  have shown : failed.phase ≠ .counting := by decide +kernel
  have ended : settled.total ≠ .counting := by decide +kernel
  have early := counting_again_behind_early_failure (.ofPrefix "") "store" false refused again
  have late := counting_again_behind_early_failure (.ofPrefix "") "store" false
    (refused ++ counted) again
  have failedEarly : FailedEarly failed :=
    ⟨rfl, rfl, ⟨0, .empty, .failed _⟩, _, rfl, rfl⟩
  refine ⟨shown, ((early.2.1 shown).1 _).mpr ⟨rfl, failedEarly⟩, ?_, ended, late.2.2 (.inl ended)⟩
  exact (early.2.1 shown).2 (by decide +kernel)

end CrawlBoard.Dashboard
