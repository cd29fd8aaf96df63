import CrawlBoard.Proofs.Dashboard.Moves

namespace CrawlBoard.Dashboard

def startedBy (before : Dashboard) (event : Event) : List Load :=
  (before.step event).1.loads.filter fun load => before.serial ≤ load.serial

def requestedBy (before : Dashboard) : Event → List Nat
  | .command command =>
      if (before.perform command).isOk then (before.target? command).toList else []
  | _ => []

def retriedBy (before : Dashboard) : Event → List Nat
  | .command command =>
      if command.reloads then
        (before.requestedBy (.command command)).filter fun page =>
          (before.page? page).any fun present => present.status.isFailed
      else []
  | _ => []

/-- Nothing is started: what there is was there before. -/
structure Continues (before after : Dashboard) : Prop where
  serial : after.serial = before.serial
  loads : ∀ load ∈ after.loads, ∃ old ∈ before.loads, load = { old with stage := load.stage }
  opened : ∀ index, (after.page? index).isSome = (before.page? index).isSome
  counting : after.count?.isSome → before.count?.isSome

namespace Continues

variable {before after : Dashboard}

theorem of_same (serial : after.serial = before.serial) (loads : after.loads = before.loads)
    (pages : after.pages = before.pages) (counting : after.count?.isSome → before.count?.isSome) :
    Continues before after where
  serial := serial
  loads load member := ⟨load, loads ▸ member, rfl⟩
  opened index := by rw [page?, page?, pages]
  counting := counting

theorem setStage (before : Dashboard) (serial : Nat) (stage : LoadStage) :
    Continues before (before.setStage serial stage) where
  serial := rfl
  loads := by
    intro load member
    rcases (mem_setStage ..).mp member with ⟨present, _⟩ | ⟨old, present, _, rfl⟩
    · exact ⟨load, present, rfl⟩
    · exact ⟨old, present, rfl⟩
  opened _ := rfl
  counting := id

theorem dropLoad (before : Dashboard) (serial : Nat) :
    Continues before (before.dropLoad serial) where
  serial := rfl
  loads load member := ⟨load, ((mem_dropLoad ..).mp member).1, rfl⟩
  opened _ := rfl
  counting := id

theorem updatePage (before : Dashboard) (load : Load) (change : OpenPage → OpenPage) :
    Continues before (before.updatePage load change) where
  serial := rfl
  loads other member := ⟨other, member, rfl⟩
  opened index := by rw [page?_updatePage, Option.isSome_map]
  counting := id

theorem trans {between : Dashboard} (first : Continues before between)
    (second : Continues between after) : Continues before after where
  serial := second.serial.trans first.serial
  loads := by
    intro load member
    obtain ⟨middle, middleMember, same⟩ := second.loads load member
    obtain ⟨old, oldMember, same'⟩ := first.loads middle middleMember
    refine ⟨old, oldMember, ?_⟩
    rw [same, same']
  opened index := (second.opened index).trans (first.opened index)
  counting := first.counting ∘ second.counting

end Continues

theorem Continues.length_eq {before after : Dashboard} (continues : Continues before after)
    (coherent : before.Coherent) (coherentToo : after.Coherent) :
    after.pages.length = before.pages.length := by
  have same (index : Nat) : index < after.pages.length ↔ index < before.pages.length := by
    rw [← coherent.page_isSome_iff, ← coherentToo.page_isSome_iff, continues.opened]
  exact Nat.le_antisymm (Nat.le_of_not_lt fun more => Nat.lt_irrefl _ ((same _).mp more))
    (Nat.le_of_not_lt fun more => Nat.lt_irrefl _ ((same _).mpr more))

theorem Change.continues {before after : Dashboard} {event : Event}
    (change : Change before event after) :
    Continues before after ∨ ∃ command, event = .command command := by
  cases change with
  | turn command => exact .inr ⟨command, rfl⟩
  | start command => exact .inr ⟨command, rfl⟩
  | askCount pass counting => exact .inl (.of_same rfl rfl rfl fun _ => by simp [counting])
  | takeCount answer =>
      exact .inl (.of_same rfl rfl rfl fun counting => by simpa [Dashboard.takeCount] using counting)
  | settleCount result ended => exact .inl (.of_same rfl rfl rfl (by simp))
  | ask load found asking => exact .inl (.setStage before load.serial .listing)
  | list load answer found listing => exact .inl (.setStage before load.serial (.ofAnswer answer))
  | place load listed found stage mounted =>
      exact .inl ((Continues.updatePage before load _).trans (.setStage _ load.serial _))
  | fetch load fetching position answer found stage =>
      exact .inl ((Continues.updatePage before load _).trans (.setStage _ load.serial _))
  | publish load status found verdict mounted =>
      exact .inl ((Continues.dropLoad before load.serial).trans (.updatePage _ load _))
  | abandon event load found unmounted => exact .inl (.dropLoad before load.serial)
  | _ => exact .inl (.of_same rfl rfl rfl id)

/-- What becomes of a command: it fails, it unmounts, it shows a page that is open, or it starts
a load, which is a retry if the page was open. -/
inductive Sequel (before : Dashboard) (command : Command) : Dashboard → Prop where
  | refused (requested : before.requestedBy (.command command) = []) :
      Sequel before command before
  | unmounted (asked : command = .unmount)
      (requested : before.requestedBy (.command command) = []) :
      Sequel before command before.unmount
  | shown (page : Nat) (requested : before.requestedBy (.command command) = [page])
      (opened : (before.page? page).isSome) (retried : before.retriedBy (.command command) = []) :
      Sequel before command { before with current := page }
  | loaded (page : Nat) (token? : Option String) (target : before.target? command = some page)
      (vacant : ∀ present, before.page? page = some present → present.status.isFailed = true)
      (requested : before.requestedBy (.command command) = [page])
      (retried : before.retriedBy (.command command) =
        if (before.page? page).isSome then [page] else []) :
      Sequel before command (before.startLoad page token?)

variable {dashboard : Dashboard}

theorem requestedBy_of_error {command : Command} {error : NavigationError}
    (failed : dashboard.perform command = .error error) :
    dashboard.requestedBy (.command command) = [] := by
  simp [requestedBy, failed, Except.isOk, Except.toBool]

theorem requestedBy_of_ok {command : Command} {after : Dashboard} {page : Nat}
    (target : dashboard.target? command = some page)
    (moved : dashboard.perform command = .ok after) :
    dashboard.requestedBy (.command command) = [page] := by
  simp [requestedBy, moved, target, Except.isOk, Except.toBool]

theorem sequel_of_error {command : Command} {error : NavigationError}
    (failed : dashboard.perform command = .error error) :
    Sequel dashboard command (dashboard.step (.command command)).1 := by
  rw [step_of_error failed]
  exact .refused (requestedBy_of_error failed)

theorem step_of_ok {command : Command} {after : Dashboard}
    (moved : dashboard.perform command = .ok after) :
    dashboard.step (.command command) = (after, []) := by
  simp [step, moved, Except.toOption]

namespace Coherent

theorem sequel_of_target (coherent : Coherent dashboard) (mounted : dashboard.unmounted = false)
    {command : Command} {page : Nat} (target : dashboard.target? command = some page) :
    Sequel dashboard command (dashboard.step (.command command)).1 := by
  have performed := coherent.perform_eq mounted target
  unfold approach at performed
  cases entrance : dashboard.entrance? page with
  | none =>
      rw [entrance] at performed
      exact sequel_of_error performed
  | some token? =>
      simp only [entrance] at performed
      split at performed
      · rename_i shown
        have requested := requestedBy_of_ok target performed
        rw [step_of_ok performed]
        obtain ⟨present, found, kept⟩ := (Option.any_eq_true ..).mp shown
        refine .shown page requested (by simp [found]) ?_
        cases again : command.reloads with
        | false => simp [retriedBy, again]
        | true => simpa [retriedBy, again, requested, found] using kept
      · rename_i hidden
        have requested := requestedBy_of_ok target performed
        have again (present : OpenPage) (found : dashboard.page? page = some present) :
            command.reloads = true ∧ present.status.isFailed = true := by
          simpa [found] using hidden
        rw [step_of_ok performed]
        refine .loaded page token? target (fun present found => (again present found).2) requested ?_
        cases found : dashboard.page? page with
        | none => simp [retriedBy, requested, found]
        | some present => simp [retriedBy, requested, found, again present found]

theorem sequel (coherent : Coherent dashboard) (command : Command) :
    Sequel dashboard command (dashboard.step (.command command)).1 := by
  cases target : dashboard.target? command with
  | some page =>
      cases mounted : dashboard.unmounted with
      | true => exact sequel_of_error (perform_unmounted mounted target)
      | false => exact coherent.sequel_of_target mounted target
  | none =>
      cases command with
      | unmount => exact .unmounted rfl (by simp [requestedBy, target])
      | prev =>
          cases current : dashboard.current with
          | zero =>
              have failed : dashboard.perform .prev = .error .atFirstPage := by
                simp [perform, prev, current]
              exact sequel_of_error failed
          | succ page => simp [target?, current] at target
      | _ => cases target

theorem startedBy_eq_nil (coherent : Coherent dashboard) {event : Event}
    (continues : Continues dashboard (dashboard.step event).1) : dashboard.startedBy event = [] := by
  refine List.filter_eq_nil_iff.mpr ?_
  intro load member
  obtain ⟨old, present, same⟩ := continues.loads load member
  have older : load.serial < dashboard.serial := by
    rw [same]
    exact coherent.fresh old present
  simpa using older

theorem startedBy_eq_singleton (coherent : Coherent dashboard) {event : Event} {page : Nat}
    {token? : Option String} (started : (dashboard.step event).1 = dashboard.startLoad page token?) :
    dashboard.startedBy event = [⟨dashboard.serial, page, token?, .asking⟩] := by
  have others : (dashboard.loads.filter fun load => dashboard.serial ≤ load.serial) = [] := by
    refine List.filter_eq_nil_iff.mpr ?_
    intro load member
    simpa using coherent.fresh load member
  rw [startedBy, started, Dashboard.startLoad, List.filter_append, others]
  simp

/-- A step starts nothing, or it is a command that starts one load. -/
theorem step_cases (coherent : Coherent dashboard) (event : Event) :
    (Continues dashboard (dashboard.step event).1 ∧ dashboard.retriedBy event = [] ∧
      ∀ page ∈ dashboard.requestedBy event, (dashboard.page? page).isSome) ∨
    ∃ page token?, (dashboard.step event).1 = dashboard.startLoad page token? ∧
      dashboard.requestedBy event = [page] ∧
      dashboard.retriedBy event = if (dashboard.page? page).isSome then [page] else [] := by
  cases event with
  | command command =>
      have followed := coherent.sequel command
      generalize (dashboard.step (.command command)).1 = after at followed ⊢
      cases followed with
      | refused requested =>
          exact .inl ⟨.of_same rfl rfl rfl id, by simp [retriedBy, requested], by simp [requested]⟩
      | unmounted asked requested =>
          exact .inl ⟨.of_same rfl rfl rfl id, by simp [retriedBy, requested], by simp [requested]⟩
      | shown page requested opened retried =>
          exact .inl ⟨.of_same rfl rfl rfl id, retried, by simpa [requested] using opened⟩
      | loaded page token? _ _ requested retried =>
          exact .inr ⟨page, token?, rfl, requested, retried⟩
  | _ =>
      rcases (step_change dashboard _).continues with continues | ⟨_, isCommand⟩
      · exact .inl ⟨continues, rfl, nofun⟩
      · cases isCommand

theorem startedBy_visit (coherent : Coherent dashboard) {page : Nat}
    (opened : (dashboard.page? page).isSome) :
    dashboard.startedBy (.command (.visit page)) = [] := by
  refine coherent.startedBy_eq_nil ?_
  cases mounted : dashboard.unmounted with
  | true =>
      have failed : dashboard.perform (.visit page) = .error .unmounted :=
        perform_unmounted mounted rfl
      rw [step_of_error failed]
      exact .of_same rfl rfl rfl id
  | false =>
      have moved : dashboard.perform (.visit page) = .ok { dashboard with current := page } := by
        simp [perform, visit, opened, mounted]
      rw [step_of_ok moved]
      exact .of_same rfl rfl rfl id

end Coherent

def started (dashboard : Dashboard) (events : List Event) : List Load :=
  (dashboard.steps events).flatMap fun entry => entry.1.startedBy entry.2

def requested (dashboard : Dashboard) (events : List Event) : List Nat :=
  (dashboard.steps events).flatMap fun entry => entry.1.requestedBy entry.2

/-- The pages that a run goes to again after they have failed. -/
def retried (dashboard : Dashboard) (events : List Event) : List Nat :=
  (dashboard.steps events).flatMap fun entry => entry.1.retriedBy entry.2

def calls (dashboard : Dashboard) (events : List Event) : List StoreCall :=
  (dashboard.steps events).flatMap fun entry => (entry.1.step entry.2).2

theorem started_cons (event : Event) (events : List Event) : dashboard.started (event :: events) =
    dashboard.startedBy event ++ (dashboard.step event).1.started events := rfl

theorem requested_cons (event : Event) (events : List Event) :
    dashboard.requested (event :: events) =
      dashboard.requestedBy event ++ (dashboard.step event).1.requested events := rfl

theorem retried_cons (event : Event) (events : List Event) : dashboard.retried (event :: events) =
    dashboard.retriedBy event ++ (dashboard.step event).1.retried events := rfl

theorem calls_cons (event : Event) (events : List Event) : dashboard.calls (event :: events) =
    (dashboard.step event).2 ++ (dashboard.step event).1.calls events := rfl

theorem Coherent.of_mem_steps {before : Dashboard} (coherent : Coherent dashboard)
    {events : List Event} {event : Event} (taken : (before, event) ∈ dashboard.steps events) :
    Coherent before := by
  obtain ⟨earlier, _, _, rfl⟩ := exists_split_of_mem_steps taken
  exact coherent.run earlier

theorem Coherent.loads_step (coherent : Coherent dashboard) (event : Event) :
    ∀ load ∈ (dashboard.step event).1.loads, ∃ old ∈ dashboard.loads ++ dashboard.startedBy event,
      load = { old with stage := load.stage } := by
  intro load member
  rcases coherent.step_cases event with ⟨continues, _⟩ | ⟨page, token?, began, _⟩
  · obtain ⟨old, present, same⟩ := continues.loads load member
    exact ⟨old, List.mem_append_left _ present, same⟩
  · rw [began] at member
    rw [coherent.startedBy_eq_singleton began]
    exact ⟨load, member, rfl⟩

theorem Coherent.loads_run (coherent : Coherent dashboard) (events : List Event) :
    ∀ load ∈ (dashboard.run events).loads, ∃ old ∈ dashboard.loads ++ dashboard.started events,
      load = { old with stage := load.stage } := by
  induction events generalizing dashboard with
  | nil =>
      intro load member
      exact ⟨load, List.mem_append_left _ member, rfl⟩
  | cons event events ih =>
      intro load member
      rw [started_cons, ← List.append_assoc]
      obtain ⟨middle, present, same⟩ :=
        ih (coherent.change (step_change dashboard event)) load member
      rcases List.mem_append.mp present with now | afterwards
      · obtain ⟨old, oldPresent, sameOld⟩ := coherent.loads_step event middle now
        refine ⟨old, List.mem_append_left _ oldPresent, ?_⟩
        rw [same, sameOld]
      · exact ⟨middle, List.mem_append_right _ afterwards, same⟩

end CrawlBoard.Dashboard
