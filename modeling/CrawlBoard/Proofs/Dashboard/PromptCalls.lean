import CrawlBoard.Dashboard.Session
import CrawlBoard.Proofs.Dashboard.TokenChain
import CrawlBoard.Proofs.Dashboard.Turns
/-!
A session at a store whose calls go on at once. Each task then takes its steps together with the
answers to their calls, so that the session is described by what becomes of its dashboard.
-/

namespace CrawlBoard

variable {σ : Type}

/-- A call that goes on at once and is answered so; the store stays among the given states. -/
structure Call.Prompt {α : Type} (states : σ → Prop) (called : Call σ α × σ)
    (answer : Except StoreError α) : Prop where
  inside : states called.2
  free : called.1.gate? = none
  mounted : called.1.unmounts = false
  answered : called.1.answer called.2 = answer

namespace StoreKind

/-- In the given states the kind of store answers as the fixed store does. -/
structure Gives (kind : StoreKind σ) (states : σ → Prop) (store : FixedStore) : Prop where
  list (state : σ) (query : ListQuery) (inside : states state) :
    Call.Prompt states (kind.list state query) (store.list query)
  fetch (state : σ) (key : String) (inside : states state) :
    Call.Prompt states (kind.fetch state key) (store.fetch key)

/-- In the given states the kind of store answers at once, and so that its replies to a pager are
these. What the counting is told is left open. -/
structure Serves (kind : StoreKind σ) (states : σ → Prop) (pager : Pager) (replies : Replies) :
    Prop where
  list (state : σ) (query : ListQuery) (inside : states state) :
    ∃ answer, Call.Prompt states (kind.list state query) answer ∧
      ∀ serial token?, query = pager.query token? → replies.listing serial token? answer
  fetch (state : σ) (key : String) (inside : states state) :
    ∃ answer, Call.Prompt states (kind.fetch state key) answer ∧
      ∀ serial (entry : ObjectEntry), entry.key = key → replies.fetch serial entry answer

variable {kind : StoreKind σ} {states : σ → Prop}

theorem Gives.serves {store : FixedStore} (gives : kind.Gives states store) (pager : Pager) :
    kind.Serves states pager (store.replies pager) where
  list state query inside :=
    ⟨_, gives.list state query inside, fun _ _ same => congrArg store.list same⟩
  fetch state key inside :=
    ⟨_, gives.fetch state key inside, fun _ _ same => congrArg store.fetch same.symm⟩

theorem Serves.listedBy {pager : Pager} {replies : Replies} (serves : kind.Serves states pager replies)
    {listing : Option String → Except StoreError ObjectPage} (decided : replies.Decided listing) :
    kind.Serves states pager (.listedBy listing) where
  list state query inside := by
    obtain ⟨answer, prompt, given⟩ := serves.list state query inside
    refine ⟨answer, prompt, fun serial token? same => ?_⟩
    exact (decided.listing_iff ..).mp (given serial token? same)
  fetch state key inside := by
    obtain ⟨answer, prompt, -⟩ := serves.fetch state key inside
    exact ⟨answer, prompt, fun _ _ _ => trivial⟩

end StoreKind

namespace Session

open Dashboard

variable {states : σ → Prop} {pager : Pager} {replies : Replies} {session : Session σ}

def moved (session : Session σ) (state : σ) (dashboard : Dashboard) : Session σ :=
  { session with store := state, dashboard }

theorem issue_of_answered (session : Session σ) (call : StoreCall) {event : Event}
    (free : (session.place call).1.gate? = none)
    (mounted : (session.place call).1.unmounts = false)
    (answered : (session.place call).1.answer (session.place call).2 = event) :
    session.issue call = session.moved (session.place call).2 (session.dashboard.step event).1 := by
  simp [issue, free, finish, mounted, answered, moved]

theorem runTask_of_granted (granted : session.granted = []) (steps : Nat) (task : Task) :
    runTask steps task session = advance task steps session := by
  simp only [runTask, granted, List.filter_nil, List.mergeSort_nil, List.foldl_nil]
  rw [← granted]

theorem advance_of_done {task : Task} (done : due? session.dashboard task = none) (fuel : Nat) :
    advance task fuel session = session := by
  cases fuel with
  | zero => rfl
  | succ fuel => rw [advance, done]

structure Unhindered (states : σ → Prop) (pager : Pager) (replies : Replies) (session : Session σ) :
    Prop where
  serves : session.kind.Serves states pager replies
  inside : states session.store
  granted : session.granted = []

namespace Unhindered

variable (unhindered : session.Unhindered states pager replies)
include unhindered

theorem moved {state : σ} (inside : states state) (dashboard : Dashboard) :
    (session.moved state dashboard).Unhindered states pager replies :=
  ⟨unhindered.serves, inside, unhindered.granted⟩

theorem issue_eq (call : StoreCall) : ∃ state event, states state ∧
    Answers replies pager call event ∧
    session.issue call = session.moved state (session.dashboard.step event).1 := by
  cases call with
  | count query =>
      obtain ⟨answer, prompt, -⟩ := unhindered.serves.list session.store query unhindered.inside
      exact ⟨_, _, prompt.inside, .count query answer, session.issue_of_answered (.count query)
        prompt.free prompt.mounted (congrArg Event.takeCount prompt.answered)⟩
  | listing serial query =>
      obtain ⟨answer, prompt, given⟩ := unhindered.serves.list session.store query unhindered.inside
      exact ⟨_, _, prompt.inside, .listing serial query answer (given serial),
        session.issue_of_answered (.listing serial query) prompt.free prompt.mounted
          (congrArg (Event.takeListing serial) prompt.answered)⟩
  | fetch serial position key =>
      obtain ⟨answer, prompt, given⟩ := unhindered.serves.fetch session.store key unhindered.inside
      exact ⟨_, _, prompt.inside, .fetch serial position key answer (given serial),
        session.issue_of_answered (.fetch serial position key) prompt.free prompt.mounted
          (congrArg (Event.takeFetch serial position) prompt.answered)⟩

theorem issueAll_eq (calls : List StoreCall) : ∃ state events, states state ∧
    List.Forall₂ (Answers replies pager) calls events ∧
    calls.foldl issue session = session.moved state (session.dashboard.run events) := by
  induction calls generalizing session with
  | nil => exact ⟨session.store, [], unhindered.inside, .nil, rfl⟩
  | cons call calls ih =>
      obtain ⟨between, event, inside, answered, issued⟩ := unhindered.issue_eq call
      obtain ⟨state, events, last, answers, all⟩ := ih (unhindered.moved inside _)
      refine ⟨state, event :: events, last, .cons answered answers, ?_⟩
      rw [List.foldl_cons, issued, all]
      rfl

/-- A step that is due is taken together with the answers to its calls. -/
theorem advance_due {task : Task} {event : Event}
    (due : due? session.dashboard task = some event) (fuel : Nat) :
    ∃ state events, states state ∧
      List.Forall₂ (Answers replies pager) (session.dashboard.step event).2 events ∧
      advance task (fuel + 1) session =
        advance task fuel (session.moved state (session.dashboard.run (event :: events))) := by
  have stepped := unhindered.moved unhindered.inside (session.dashboard.step event).1
  obtain ⟨state, events, inside, answers, issued⟩ :=
    stepped.issueAll_eq (session.dashboard.step event).2
  refine ⟨state, events, inside, answers, ?_⟩
  rw [advance, due]
  exact congrArg (advance task fuel) issued

end Unhindered

end Session

end CrawlBoard
