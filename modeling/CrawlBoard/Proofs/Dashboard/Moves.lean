import CrawlBoard.Proofs.Dashboard.Retention
import CrawlBoard.Proofs.Dashboard.Unmount
import CrawlBoard.Site.Router

namespace CrawlBoard

def Command.reloads : Command → Bool
  | .visit _ => false
  | _ => true

namespace Dashboard

def target? (dashboard : Dashboard) : Command → Option Nat
  | .navigate page | .visit page => some page
  | .next => some (dashboard.current + 1)
  | .prev =>
      match dashboard.current with
      | 0 => none
      | page + 1 => some page
  | .unmount => none

/-- Goes to a page that can be reached. It is loaded unless it is open, and if `again` holds also
when it is open but has failed. -/
def approach (dashboard : Dashboard) (again : Bool) (page : Nat) :
    Except NavigationError Dashboard :=
  match dashboard.entrance? page with
  | none => .error (.unreachable page)
  | some token? =>
      if (dashboard.page? page).any fun present => !(again && present.status.isFailed) then
        .ok { dashboard with current := page }
      else .ok (dashboard.startLoad page token?)

variable {dashboard : Dashboard}

theorem entrance?_isSome_iff (page : Nat) : (dashboard.entrance? page).isSome ↔ page = 0 ∨
    ∃ before token, dashboard.page? (page - 1) = some before ∧
      before.status = .ready (some token) := by
  cases page with
  | zero => simp [entrance?]
  | succ page =>
      rw [Option.isSome_iff_exists, Nat.add_sub_cancel]
      constructor
      · rintro ⟨token?, entrance⟩
        obtain ⟨before, token, found, ready, _⟩ := (entrance?_succ ..).mp entrance
        exact .inr ⟨before, token, found, ready⟩
      · rintro (first | ⟨before, token, found, ready⟩)
        · cases first
        · exact ⟨some token, (entrance?_succ ..).mpr ⟨before, token, found, ready, rfl⟩⟩

theorem hasNext_snapshotBetween_iff (later : Dashboard) (page : Nat) :
    (∃ snapshot, dashboard.snapshotBetween later page = some snapshot ∧ snapshot.hasNext) ↔
      (dashboard.entrance? (page + 1)).isSome := by
  cases found : dashboard.page? page with
  | none => simp [snapshotBetween, entrance?, found]
  | some present => simp [snapshotBetween, entrance?, found]

namespace Coherent

theorem entrance_of_page (coherent : Coherent dashboard) {index : Nat} {page : OpenPage}
    (found : dashboard.page? index = some page) :
    ∃ token?, dashboard.entrance? index = some token? := by
  cases index with
  | zero => exact ⟨none, rfl⟩
  | succ index =>
      have inside := coherent.lt_of_page found
      obtain ⟨before, foundBefore⟩ := coherent.page_of_lt (Nat.lt_of_succ_lt inside)
      obtain ⟨token, ready⟩ := coherent.chained index before foundBefore inside
      exact ⟨some token, (entrance?_succ ..).mpr ⟨before, token, foundBefore, ready, rfl⟩⟩

theorem navigate_eq (coherent : Coherent dashboard) (mounted : dashboard.unmounted = false)
    (page : Nat) : dashboard.navigate page = dashboard.approach true page := by
  unfold navigate approach
  cases found : dashboard.page? page with
  | none => cases dashboard.entrance? page <;> simp [mounted]
  | some present =>
      obtain ⟨token?, entrance⟩ := coherent.entrance_of_page found
      simp [mounted, entrance]

theorem visit_eq (coherent : Coherent dashboard) (mounted : dashboard.unmounted = false)
    (page : Nat) : dashboard.visit page = dashboard.approach false page := by
  unfold visit
  cases found : dashboard.page? page with
  | none => simp [coherent.navigate_eq mounted, approach, found]
  | some present =>
      obtain ⟨token?, entrance⟩ := coherent.entrance_of_page found
      simp [mounted, approach, found, entrance]

theorem perform_eq (coherent : Coherent dashboard) (mounted : dashboard.unmounted = false)
    {command : Command} {page : Nat} (target : dashboard.target? command = some page) :
    dashboard.perform command = dashboard.approach command.reloads page := by
  cases command with
  | navigate other =>
      cases target
      exact coherent.navigate_eq mounted page
  | visit other =>
      cases target
      exact coherent.visit_eq mounted page
  | next =>
      cases target
      exact coherent.navigate_eq mounted (dashboard.current + 1)
  | prev =>
      cases current : dashboard.current with
      | zero => simp [target?, current] at target
      | succ before =>
          simp only [target?, current, Option.some.injEq] at target
          simpa [perform, prev, current, target, Command.reloads] using
            coherent.navigate_eq mounted page
  | unmount => cases target

theorem prev_eq (coherent : Coherent dashboard) (mounted : dashboard.unmounted = false)
    {page : Nat} (current : dashboard.current = page + 1) :
    dashboard.prev = .ok { dashboard with current := page } := by
  have inside : page + 1 < dashboard.pages.length := current ▸ coherent.current_lt
  obtain ⟨present, found⟩ := coherent.page_of_lt (Nat.lt_of_succ_lt inside)
  obtain ⟨token, ready⟩ := coherent.chained page present found inside
  obtain ⟨token?, entrance⟩ := coherent.entrance_of_page found
  simp only [prev, current, coherent.navigate_eq mounted]
  simp [approach, entrance, found, ready, PageStatus.isFailed]

end Coherent

theorem approach_ok_iff (again : Bool) (page : Nat) :
    (∃ after, dashboard.approach again page = .ok after) ↔ (dashboard.entrance? page).isSome := by
  unfold approach
  cases dashboard.entrance? page with
  | none => simp
  | some token? =>
      simp only [Option.isSome_some, iff_true]
      split
      · exact ⟨_, rfl⟩
      · exact ⟨_, rfl⟩

theorem approach_eq_error (again : Bool) {page : Nat}
    (unreachable : dashboard.entrance? page = none) :
    dashboard.approach again page = .error (.unreachable page) := by
  simp [approach, unreachable]

theorem arrived_of_approach {again : Bool} {page : Nat} {after : Dashboard}
    (moved : dashboard.approach again page = .ok after) :
    (after.page? page).isSome ∧ after.current = page := by
  unfold approach at moved
  split at moved
  · cases moved
  · rename_i token? entrance
    split at moved
    · rename_i shown
      cases moved
      obtain ⟨present, found, _⟩ := (Option.any_eq_true ..).mp shown
      exact ⟨Option.isSome_iff_exists.mpr ⟨present, found⟩, rfl⟩
    · cases moved
      refine ⟨?_, rfl⟩
      rw [page?_startLoad, if_pos rfl]
      rfl

theorem perform_unmounted (unmounted : dashboard.unmounted = true) {command : Command} {page : Nat}
    (target : dashboard.target? command = some page) :
    dashboard.perform command = .error .unmounted := by
  have stuck := navigate_unmounted dashboard unmounted
  cases command with
  | navigate other => exact stuck other
  | visit other => simp [perform, visit, unmounted, stuck]
  | next => exact stuck _
  | prev =>
      cases current : dashboard.current with
      | zero => simp [target?, current] at target
      | succ before => simp [perform, prev, current, stuck]
  | unmount => cases target

theorem Coherent.arrived (coherent : Coherent dashboard) {command : Command} {page : Nat}
    {after : Dashboard} (target : dashboard.target? command = some page)
    (moved : dashboard.perform command = .ok after) :
    (after.page? page).isSome ∧ after.current = page := by
  cases mounted : dashboard.unmounted with
  | true => cases (perform_unmounted mounted target).symm.trans moved
  | false =>
      rw [coherent.perform_eq mounted target] at moved
      exact arrived_of_approach moved

theorem step_of_error {command : Command} {error : NavigationError}
    (failed : dashboard.perform command = .error error) :
    dashboard.step (.command command) = (dashboard, []) := by
  simp [step, failed, Except.toOption]

def opening (page : Nat) (reload : Bool) : Command := if reload then .navigate page else .visit page

theorem openPage_eq (site : Site) (page : Nat) (reload : Bool) : site.openPage page reload =
    (site.dashboard.perform (opening page reload)).bind fun after =>
      match after.snapshot page with
      | some snapshot => .ok (snapshot, { site with dashboard := after })
      | none => .error (.unreachable page) := by
  cases reload <;> rfl

theorem Coherent.error_of_openPage {site : Site} (coherent : Coherent site.dashboard) {page : Nat}
    {reload : Bool} {error : NavigationError} (failed : site.openPage page reload = .error error) :
    site.dashboard.perform (opening page reload) = .error error := by
  have target : site.dashboard.target? (opening page reload) = some page := by
    cases reload <;> rfl
  rw [openPage_eq] at failed
  cases moved : site.dashboard.perform (opening page reload) with
  | error cause =>
      rw [moved] at failed
      cases failed
      rfl
  | ok after =>
      obtain ⟨present, found⟩ := Option.isSome_iff_exists.mp (coherent.arrived target moved).1
      simp [moved, Except.bind, snapshot, snapshotBetween, found] at failed

/-- A mounted dashboard goes to a page exactly if it is the first one or the page before it is
ready and has a token, which is when the page before it shows that more follow. What fails changes
nothing and calls nothing; what succeeds leaves the page current and open for good, so that a
request for a page fails only where going to it fails. -/
theorem moves_follow_published_tokens (pager : Pager) (location : String) (probing : Bool)
    (events : List Event) (page : Nat) :
    let dashboard := (mount pager location probing).run events
    let reachable := page = 0 ∨ ∃ before token, dashboard.page? (page - 1) = some before ∧
      before.status = .ready (some token)
    (dashboard.unmounted = true →
      dashboard.navigate page = .error .unmounted ∧ dashboard.visit page = .error .unmounted) ∧
    (dashboard.unmounted = false →
      (reachable → (∃ after, dashboard.navigate page = .ok after) ∧
        ∃ after, dashboard.visit page = .ok after) ∧
      (¬ reachable → dashboard.navigate page = .error (.unreachable page) ∧
        dashboard.visit page = .error (.unreachable page)) ∧
      (dashboard.current = 0 → dashboard.prev = .error .atFirstPage) ∧
      (∀ index, dashboard.current = index + 1 →
        dashboard.prev = .ok { dashboard with current := index }) ∧
      ∀ later, (∃ after, dashboard.navigate (page + 1) = .ok after) ↔
        ∃ snapshot, dashboard.snapshotBetween later page = some snapshot ∧ snapshot.hasNext) ∧
    dashboard.next = dashboard.navigate (dashboard.current + 1) ∧
    (∀ command error, dashboard.perform command = .error error →
      dashboard.step (.command command) = (dashboard, [])) ∧
    (∀ command target after, dashboard.target? command = some target →
      dashboard.perform command = .ok after →
      after.current = target ∧ ∀ later, ((after.run later).snapshot target).isSome) ∧
    ∀ (site : Site) (reload : Bool) (error : NavigationError), site.dashboard = dashboard →
      site.openPage page reload = .error error →
      dashboard.perform (if reload then .navigate page else .visit page) = .error error := by
  intro dashboard reachable
  have accounted : Replies.unknown.Accounted dashboard := (retains_run (.mounted ..) events).1
  have coherent : Coherent dashboard := accounted.coherent
  refine ⟨?_, ?_, rfl, fun _ _ failed => step_of_error failed, ?_, ?_⟩
  · intro unmounted
    have navigated : dashboard.perform (.navigate page) = .error .unmounted :=
      perform_unmounted unmounted rfl
    have visited : dashboard.perform (.visit page) = .error .unmounted :=
      perform_unmounted unmounted rfl
    exact ⟨navigated, visited⟩
  · intro mounted
    refine ⟨?_, ?_, ?_, ?_, ?_⟩
    · intro reached
      have entrance := (entrance?_isSome_iff page).mpr reached
      rw [coherent.navigate_eq mounted, coherent.visit_eq mounted]
      exact ⟨(approach_ok_iff true page).mpr entrance, (approach_ok_iff false page).mpr entrance⟩
    · intro unreached
      have entrance : dashboard.entrance? page = none :=
        Option.not_isSome_iff_eq_none.mp fun some => unreached ((entrance?_isSome_iff page).mp some)
      rw [coherent.navigate_eq mounted, coherent.visit_eq mounted]
      exact ⟨approach_eq_error true entrance, approach_eq_error false entrance⟩
    · intro first
      simp [prev, first]
    · exact fun index current => coherent.prev_eq mounted current
    · intro later
      rw [coherent.navigate_eq mounted, approach_ok_iff, hasNext_snapshotBetween_iff]
  · intro command target after asked moved
    obtain ⟨opened, current⟩ := coherent.arrived asked moved
    refine ⟨current, ?_⟩
    intro later
    obtain ⟨present, found⟩ := Option.isSome_iff_exists.mp opened
    have change := perform_change dashboard after command moved
    have retains := (retains_run (accounted_of_unknown accounted change) later).2
    obtain ⟨kept, foundKept, _⟩ := retains target present found
    simp [snapshot, snapshotBetween, foundKept]
  · rintro site reload error same failed
    have shown : Coherent site.dashboard := same ▸ coherent
    rw [← same]
    exact shown.error_of_openPage failed

/-- Two pages are open, and the second one is loading. -/
theorem third_page_is_refused_while_second_is_loading :
    let mounted := mount (.ofPrefix "") "store" false
    let dashboard := mounted.run [.askListing 0, .takeListing 0 (.ok ⟨[], some "t"⟩), .place 0,
      .publish 0, .command .next]
    let site : Site := { dashboard, location := "store", indexUrl? := none }
    mounted.prev = .error .atFirstPage ∧
    (dashboard.unmounted = false ∧ dashboard.current = 1) ∧
    ((∃ after, dashboard.navigate 1 = .ok after) ∧ ∃ after, dashboard.visit 1 = .ok after) ∧
    (dashboard.navigate 2 = .error (.unreachable 2) ∧ dashboard.visit 2 = .error (.unreachable 2)) ∧
    dashboard.step (.command (.navigate 2)) = (dashboard, []) ∧
    dashboard.prev = .ok { dashboard with current := 0 } ∧
    ((({ dashboard with current := 0 } : Dashboard).run [.askListing 1]).snapshot 0).isSome ∧
    (site.openPage 2 true = .error (.unreachable 2) ∧
      dashboard.perform (.navigate 2) = .error (.unreachable 2)) ∧
    dashboard.unmount.navigate 1 = .error .unmounted := by
  intro mounted dashboard site
  let events : List Event := [.askListing 0, .takeListing 0 (.ok ⟨[], some "t"⟩), .place 0,
    .publish 0, .command .next]
  have moves := moves_follow_published_tokens (.ofPrefix "") "store" false
  have atFirst : mounted.prev = .error .atFirstPage := ((moves [] 0).2.1 rfl).2.2.1 rfl
  obtain ⟨_, second, _, refused, arrived, _⟩ := moves events 1
  obtain ⟨reached, _, _, back, _⟩ := second rfl
  obtain ⟨_, third, _, _, _, requests⟩ := moves events 2
  obtain ⟨_, unreached, _⟩ := third rfl
  obtain ⟨gone, _⟩ := moves (events ++ [.command .unmount]) 1
  have notReady : ¬ (2 = 0 ∨ ∃ before token, dashboard.page? (2 - 1) = some before ∧
      before.status = .ready (some token)) := by
    rintro (first | ⟨before, token, found, ready⟩)
    · cases first
    · have loading : (dashboard.page? 1).any (fun page => page.status.isLoading) = true := by
        decide +kernel
      simp [found, ready, PageStatus.isLoading] at loading
  have stuck := unreached notReady
  have returned := back 0 rfl
  refine ⟨atFirst, ⟨rfl, rfl⟩, reached (.inr ⟨_, "t", rfl, rfl⟩), stuck,
    refused (.navigate 2) _ stuck.1, returned, ?_, ?_, (gone rfl).1⟩
  · exact (arrived .prev 0 _ rfl returned).2 [.askListing 1]
  · have failed : site.openPage 2 true = .error (.unreachable 2) := by
      have asked : site.dashboard.perform (opening 2 true) = .error (.unreachable 2) := stuck.1
      rw [openPage_eq, asked]
      rfl
    exact ⟨failed, requests site true _ rfl failed⟩

end Dashboard

end CrawlBoard
