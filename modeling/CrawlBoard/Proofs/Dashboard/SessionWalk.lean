import CrawlBoard.Dashboard.Walk
import CrawlBoard.Proofs.Dashboard.PromptCalls
/-!
A session's walk over its pages. If every call goes on at once, whatever the counting is told, it is
one of the runs of a walk, and it comes to its end.
-/

namespace CrawlBoard

variable {σ : Type}

/-! ## Tasks of the count -/

def Event.isCount : Event → Bool
  | .askCount | .takeCount _ | .publishCount => true
  | _ => false

theorem Event.isFree_of_isCount {event : Event} (counts : event.isCount = true) :
    event.isFree = true := by
  cases event <;> first | rfl | cases counts

namespace Dashboard

theorem loads_step_of_isCount (dashboard : Dashboard) {event : Event}
    (counts : event.isCount = true) : (dashboard.step event).1.loads = dashboard.loads := by
  cases event with
  | askCount =>
      simp only [step, askCount]
      split <;> rfl
  | takeCount answer => rfl
  | publishCount =>
      cases counting : dashboard.count? with
      | none => simp [step, publishCount, counting]
      | some pass =>
          cases pass with
          | ended result => rw [step, publishCount_of_ended dashboard result counting]
          | _ => simp [step, publishCount, counting]
  | _ => cases counts

theorem load?_run_of_isCount {events : List Event} (counts : ∀ event ∈ events, event.isCount = true)
    (dashboard : Dashboard) (serial : Nat) :
    (dashboard.run events).load? serial = dashboard.load? serial := by
  induction events generalizing dashboard with
  | nil => rfl
  | cons event events ih =>
      rw [run_cons, ih fun other member => counts other (List.mem_cons_of_mem _ member), load?,
        loads_step_of_isCount dashboard (counts event List.mem_cons_self), load?]

theorem isCount_of_answers {replies : Replies} {pager : Pager} {calls : List StoreCall}
    {events : List Event} (answers : List.Forall₂ (Answers replies pager) calls events)
    (counts : ∀ call ∈ calls, ∃ query, call = .count query) :
    ∀ event ∈ events, event.isCount = true := by
  induction answers with
  | nil => exact fun _ member => absurd member List.not_mem_nil
  | cons answer answers ih =>
      obtain ⟨query, rfl⟩ := counts _ List.mem_cons_self
      refine List.forall_mem_cons.mpr ⟨?_, ih fun call member => counts call (.tail _ member)⟩
      cases answer
      rfl

theorem due?_count {dashboard : Dashboard} {event : Event}
    (due : Session.due? dashboard .count = some event) :
    event.isCount = true ∧ ∀ call ∈ (dashboard.step event).2, ∃ query, call = .count query := by
  cases counting : dashboard.count? with
  | none => simp [Session.due?, counting] at due
  | some pass =>
      cases pass with
      | asking token? counted =>
          obtain rfl : .askCount = event := by simpa [Session.due?, counting] using due
          refine ⟨rfl, fun call member => ?_⟩
          simp only [step, askCount, counting] at member
          split at member
          · cases member
          · exact ⟨_, List.mem_singleton.mp member⟩
      | ended result =>
          obtain rfl : .publishCount = event := by simpa [Session.due?, counting] using due
          exact ⟨rfl, fun call member => absurd member List.not_mem_nil⟩
      | waiting token? counted => simp [Session.due?, counting] at due

end Dashboard

/-! ## Sessions -/

namespace Session

open Dashboard

variable {states : σ → Prop} {pager : Pager} {replies : Replies} {page : Nat} {session : Session σ}

theorem Unhindered.advance_count (unhindered : session.Unhindered states pager replies)
    (fuel : Nat) : ∃ state events, states state ∧
    (∀ event ∈ events, event.isCount = true) ∧
    advance .count fuel session = session.moved state (session.dashboard.run events) := by
  induction fuel generalizing session with
  | zero => exact ⟨session.store, [], unhindered.inside, by simp, rfl⟩
  | succ fuel ih =>
      cases due : due? session.dashboard .count with
      | none =>
          refine ⟨session.store, [], unhindered.inside, by simp, ?_⟩
          rw [advance, due]
          rfl
      | some event =>
          obtain ⟨counts, calls⟩ := due?_count due
          obtain ⟨between, answered, inside, answers, advanced⟩ := unhindered.advance_due due fuel
          obtain ⟨state, events, last, others, rest⟩ := ih (unhindered.moved inside
            (session.dashboard.run (event :: answered)))
          have counted := isCount_of_answers answers calls
          refine ⟨state, (event :: answered) ++ events, last, ?_, ?_⟩
          · exact List.forall_mem_append.mpr ⟨List.forall_mem_cons.mpr ⟨counts, counted⟩, others⟩
          · rw [advanced, rest, run_append]
            rfl

/-! ## Tasks of a load -/

/-- With so many steps the task of a load comes to its end. -/
def FinishesIn (states : σ → Prop) (replies : Replies) (serial fuel : Nat) (session : Session σ) :
    Prop :=
  ∃ state events, states state ∧ session.dashboard.Worked replies events ∧
    (session.dashboard.run events).load? serial = none ∧
    advance (.load serial) fuel session = session.moved state (session.dashboard.run events)

namespace FinishesIn

variable {serial fuel : Nat} {load : Load}

theorem of_ended {states : σ → Prop} (inside : states session.store)
    (ended : session.dashboard.load? serial = none) (fuel : Nat) :
    session.FinishesIn states replies serial fuel := by
  refine ⟨session.store, [], inside, .nil, ended, advance_of_done ?_ fuel⟩
  rw [due?, ended]

variable (unhindered : session.Unhindered states pager replies)
include unhindered

theorem after {event : Event} (due : due? session.dashboard (.load serial) = some event)
    (later : ∀ state events, states state →
      List.Forall₂ (Answers replies pager) (session.dashboard.step event).2 events →
      session.dashboard.Worked replies (event :: events) ∧
        (session.moved state (session.dashboard.run (event :: events))).FinishesIn states replies
          serial fuel) : session.FinishesIn states replies serial (fuel + 1) := by
  obtain ⟨between, earlier, inside, answers, advanced⟩ := unhindered.advance_due due fuel
  obtain ⟨worked, state, events, last, workedOn, ended, rest⟩ := later between earlier inside answers
  refine ⟨state, event :: earlier ++ events, last, worked.append workedOn, ?_, ?_⟩
  · rw [run_append]
    exact ended
  · rw [advanced, rest, run_append]
    rfl

variable (here : AtPage replies pager page session.dashboard)
  (found : session.dashboard.load? serial = some load)
include here found

theorem of_over (idle : LoadOver load.stage) : session.FinishesIn states replies serial (fuel + 1) := by
  obtain ⟨-, rfl⟩ := load_of_load? session.dashboard serial load found
  have due : due? session.dashboard (.load load.serial) = some (.publish load.serial) := by
    rcases idle with ⟨error, stage⟩ | ⟨listed, stage⟩
    · simp [due?, found, stage]
    · simp [due?, found, stage, PageLoad.finished]
  obtain ⟨silent, ended⟩ := publish_turn found idle here.mounted
  refine after unhindered due fun state events inside answers => ?_
  rw [silent] at answers
  obtain rfl := List.forall₂_nil_left_iff.mp answers
  exact ⟨.of_free (by simp [Event.isFree]), of_ended inside ended fuel⟩

theorem of_listed {listed : ListedPage} (stage : load.stage = .listed listed) :
    session.FinishesIn states replies serial (fuel + 2) := by
  obtain ⟨-, rfl⟩ := load_of_load? session.dashboard serial load found
  have due : due? session.dashboard (.load load.serial) = some (.place load.serial) := by
    simp [due?, found, stage]
  refine after unhindered due fun state events inside answers => ?_
  obtain ⟨worked, placed⟩ := place_turn found stage here.mounted answers
  exact ⟨worked, of_over (unhindered.moved inside _) (worked.atPage here) placed (.inr ⟨listed, rfl⟩)⟩

theorem of_asking (stage : load.stage = .asking) :
    session.FinishesIn states replies serial (fuel + 3) := by
  obtain ⟨-, rfl⟩ := load_of_load? session.dashboard serial load found
  have due : due? session.dashboard (.load load.serial) = some (.askListing load.serial) := by
    simp [due?, found, stage]
  refine after unhindered due fun state events inside answers => ?_
  rw [← here.samePager] at answers
  obtain ⟨worked, answer, answered⟩ := ask_turn found stage answers
  have there := worked.atPage here
  refine ⟨worked, ?_⟩
  cases answer with
  | ok page => exact of_listed (unhindered.moved inside _) there answered rfl
  | error error => exact of_over (unhindered.moved inside _) there answered (.inl ⟨error, rfl⟩)

end FinishesIn

/-! ## Pages -/

/-- At the page of a walk nothing is left to do but the load of the page and, at first, the count. -/
structure Opens (states : σ → Prop) (pager : Pager) (replies : Replies) (page : Nat)
    (session : Session σ) : Prop where
  unhindered : session.Unhindered states pager replies
  here : AtPage replies pager page session.dashboard
  asking : ∃ load, session.dashboard.load? page = some load ∧ load.stage = .asking
  tasks : session.ready = [.load page] ∨ session.ready = [.count, .load page]

structure Settles (states : σ → Prop) (pager : Pager) (replies : Replies) (page : Nat)
    (session after : Session σ) : Prop where
  unhindered : after.Unhindered states pager replies
  ready : after.ready = []
  ended : after.dashboard.load? page = none
  events : ∃ events, session.dashboard.Worked replies events ∧
    after.dashboard = session.dashboard.run events

theorem settle_of_tasks {task : Task} {ready : List Task} (tasks : session.ready = task :: ready)
    (steps fuel : Nat) : session.settle steps (fuel + 1) =
      (runTask steps task { session with ready }).settle steps fuel := by
  rw [settle, tasks]

theorem settle_of_idle (idle : session.ready = []) (steps fuel : Nat) :
    session.settle steps fuel = session := by
  cases fuel with
  | zero => rfl
  | succ fuel => rw [settle, idle]

namespace Opens

theorem mounting {kind : StoreKind σ} (serves : kind.Serves states pager replies) {state : σ}
    (inside : states state) (probing : Bool) :
    (mount kind state pager probing).Opens states pager replies 0 where
  unhindered := ⟨serves, inside, rfl⟩
  here := .mounting ..
  asking := ⟨_, rfl, rfl⟩
  tasks := .inr rfl

variable (opens : session.Opens states pager replies page)
include opens

theorem settle_load (tasks : session.ready = [.load page]) {steps : Nat} (enough : 3 ≤ steps)
    (fuel : Nat) : session.Settles states pager replies page (session.settle steps (fuel + 1)) := by
  obtain ⟨more, rfl⟩ := Nat.exists_eq_add_of_le' enough
  obtain ⟨load, found, asking⟩ := opens.asking
  have alone : Unhindered states pager replies { session with ready := [] } :=
    ⟨opens.unhindered.serves, opens.unhindered.inside, opens.unhindered.granted⟩
  obtain ⟨state, events, inside, worked, ended, advanced⟩ :=
    @FinishesIn.of_asking _ _ _ _ _ _ _ more _ alone opens.here found asking
  rw [settle_of_tasks tasks, runTask_of_granted alone.granted, advanced, settle_of_idle rfl]
  exact ⟨alone.moved inside _, rfl, ended, events, worked, rfl⟩

theorem count (tasks : session.ready = [.count, .load page]) (steps : Nat) :
    let counted := runTask steps .count { session with ready := [.load page] }
    counted.Opens states pager replies page ∧ counted.ready = [.load page] ∧
      (∃ events, session.dashboard.Worked replies events ∧
        counted.dashboard = session.dashboard.run events) ∧
      ∀ fuel, session.settle steps (fuel + 1) = counted.settle steps fuel := by
  have others : Unhindered states pager replies { session with ready := [.load page] } :=
    ⟨opens.unhindered.serves, opens.unhindered.inside, opens.unhindered.granted⟩
  obtain ⟨state, events, inside, counts, advanced⟩ := others.advance_count steps
  have worked : session.dashboard.Worked replies events :=
    .of_free fun event member => Event.isFree_of_isCount (counts event member)
  obtain ⟨load, found, asking⟩ := opens.asking
  intro counted
  have reached : counted =
      moved { session with ready := [.load page] } state (session.dashboard.run events) :=
    (runTask_of_granted others.granted ..).trans advanced
  rw [reached]
  refine ⟨⟨others.moved inside _, worked.atPage opens.here,
    ⟨load, (load?_run_of_isCount counts ..).trans found, asking⟩, .inl rfl⟩, rfl,
    ⟨events, worked, rfl⟩, fun fuel => ?_⟩
  rw [settle_of_tasks tasks, ← reached]

theorem settle {steps : Nat} (enough : 3 ≤ steps) :
    session.Settles states pager replies page (session.settle steps steps) := by
  obtain ⟨more, rfl⟩ := Nat.exists_eq_add_of_le' enough
  rcases opens.tasks with tasks | tasks
  · exact opens.settle_load tasks enough (more + 2)
  · obtain ⟨opened, alone, ⟨counting, worked, counted⟩, goesOn⟩ := opens.count tasks (more + 3)
    have settled := opened.settle_load alone enough (more + 1)
    obtain ⟨events, workedOn, same⟩ := settled.events
    rw [goesOn]
    refine ⟨settled.unhindered, settled.ready, settled.ended, counting ++ events,
      worked.append (counted ▸ workedOn), ?_⟩
    rw [run_append, ← counted]
    exact same

end Opens

theorem Settles.next {before : Session σ} (settled : before.Settles states pager replies page session)
    (here : AtPage replies pager page session.dashboard) {last? : Option Nat}
    (goesOn : session.dashboard.look last? = .goesOn) : ∃ onward, session.perform .next = .ok onward ∧
      onward.dashboard = (session.dashboard.step (.command .next)).1 ∧
      onward.Opens states pager replies (page + 1) := by
  obtain ⟨token?, moved, there⟩ := here.next goesOn
  obtain ⟨opened, token, found, ready, -⟩ := here.of_goesOn goesOn
  have settledLoads : session.dashboard.loads = [] := by
    refine List.eq_nil_iff_forall_not_mem.mpr fun load member => ?_
    rw [(here.page_of_load member).2.2 opened found] at ready
    cases ready
  have loads : (session.dashboard.startLoad (page + 1) token?).loads =
      [⟨page + 1, page + 1, token?, .asking⟩] := by
    rw [startLoad, settledLoads, here.serial, List.nil_append]
  refine ⟨session.resume (session.dashboard.startLoad (page + 1) token?), ?_, ?_, ?_⟩
  · rw [perform, moved]
    rfl
  · rw [step_of_ok moved]
    rfl
  · refine ⟨⟨settled.unhindered.serves, settled.unhindered.inside, settled.unhindered.granted⟩,
      there, ?_, ?_⟩
    · refine ⟨⟨page + 1, page + 1, token?, .asking⟩, ?_, rfl⟩
      simp [resume, load?, loads]
    · refine .inl ?_
      simp [resume, settled.ready, loads, here.serial]

/-- The walk of a session is one of the runs of a walk, and ends as this one does. It begins with all
that can be done before the first page is left. -/
theorem Opens.walk (opens : session.Opens states pager replies page)
    {listing : Option String → Except StoreError ObjectPage} (decided : replies.Decided listing)
    {pages : List ObjectPage} {failure? : Option StoreError}
    (trail : Trail listing none pages failure?) {last? : Option Nat}
    (within : ∀ target ∈ last?, page ≤ target) {steps : Nat} (enough : 3 ≤ steps) {fuel : Nat}
    (rest : wanted last? (pages.length + failure?.toList.length) ≤ page + fuel) :
    ∃ (events : List Event) (result : Except WalkError Nat) (after : Session σ),
      session.dashboard.Walked replies last? events ∧
      after.dashboard = session.dashboard.run events ∧
      after.dashboard.look last? = .ends result ∧
      session.walk last? steps fuel = (result, after) ∧
      ∃ later, after.dashboard = (session.settle steps steps).dashboard.run later := by
  -- Over the pages the walk may still open. With no page left, it has gone beyond what is wanted.
  induction fuel generalizing session page with
  | zero =>
      have inside := lt_wanted (opens.here.lt_total decided trail) within
      omega
  | succ fuel ih =>
      have settled := opens.settle enough
      obtain ⟨work, worked, same⟩ := settled.events
      have there : AtPage replies pager page (session.settle steps steps).dashboard :=
        same ▸ worked.atPage opens.here
      rw [walk_eq]
      generalize session.settle steps steps = after at settled same there ⊢
      cases look : after.dashboard.look last? with
      | waits => exact absurd look (there.look_of_ended settled.ended)
      | ends result => exact ⟨work, result, after, worked.walked last?, same, look, rfl, [], rfl⟩
      | goesOn =>
          obtain ⟨onward, performed, moved, opensNext⟩ := settled.next there look
          obtain ⟨events, result, last, walked, ran, ends, value, -⟩ :=
            ih opensNext (there.within_next look within) (by omega)
          refine ⟨work ++ .command .next :: events, result, last, ?_, ?_, ends, ?_,
            .command .next :: events, ?_⟩
          · rw [Walked, steps_append]
            refine List.forall_mem_append.mpr ⟨worked.walked last?, ?_⟩
            refine List.forall_mem_cons.mpr ⟨⟨rfl, same ▸ look⟩, ?_⟩
            rw [← same, ← moved]
            exact walked
          · rw [run_append, run_cons, ← same, ← moved]
            exact ran
          · simpa only [performed] using value
          · rw [run_cons, ← moved]
            exact ran

/-- A walk from the start ends as the trail says, with the pages that it wants. -/
theorem walk_mount {kind : StoreKind σ} (serves : kind.Serves states pager replies)
    {listing : Option String → Except StoreError ObjectPage} (decided : replies.Decided listing)
    {pages : List ObjectPage} {failure? : Option StoreError}
    (trail : Trail listing none pages failure?) {state : σ} (inside : states state) (probing : Bool)
    {last? : Option Nat} {patience : Nat} (enough : 3 ≤ patience)
    (longEnough : wanted last? (pages.length + failure?.toList.length) ≤ patience) :
    let start := Dashboard.mount pager (kind.location state) probing
    let result := walkEnd (kind.location state) last? pages failure?
    ∃ (events : List Event) (after : Session σ), start.Walked replies last? events ∧
      start.Completes last? pages failure? result events ∧ after.dashboard = start.run events ∧
      (mount kind state pager probing).walk last? patience patience = (result, after) ∧
      ∃ later, after.dashboard =
        ((mount kind state pager probing).settle patience patience).dashboard.run later := by
  intro start result
  have fuelled : wanted last? (pages.length + failure?.toList.length) ≤ 0 + patience := by
    rwa [Nat.zero_add]
  obtain ⟨events, ended, after, walked, same, ends, value⟩ :=
    (Opens.mounting serves inside probing).walk decided trail (fun _ _ => Nat.zero_le _) enough
      fuelled
  have completes := completes_of_walked walked decided trail (same ▸ ends)
  obtain rfl : ended = result := completes.result_eq
  exact ⟨events, after, walked, completes, same, value⟩

end Session

end CrawlBoard
