import CrawlBoard.Proofs.Dashboard.Change

namespace CrawlBoard.Dashboard

def steps (dashboard : Dashboard) : List Event → List (Dashboard × Event)
  | [] => []
  | event :: events => (dashboard, event) :: (dashboard.step event).1.steps events

theorem steps_append (dashboard : Dashboard) (earlier later : List Event) :
    dashboard.steps (earlier ++ later) =
      dashboard.steps earlier ++ (dashboard.run earlier).steps later := by
  induction earlier generalizing dashboard with
  | nil => rfl
  | cons event rest ih => exact congrArg _ (ih (dashboard.step event).1)

theorem exists_split_of_mem_steps {dashboard before : Dashboard} {events : List Event} {event : Event}
    (taken : (before, event) ∈ dashboard.steps events) :
    ∃ earlier later, events = earlier ++ event :: later ∧ before = dashboard.run earlier := by
  induction events generalizing dashboard with
  | nil => cases taken
  | cons first rest ih =>
      rcases List.mem_cons.mp taken with now | afterwards
      · cases now
        exact ⟨[], rest, rfl, rfl⟩
      · obtain ⟨earlier, later, rfl, rfl⟩ := ih afterwards
        exact ⟨first :: earlier, later, rfl, rfl⟩

theorem run_keeps_of_steps (invariant : Dashboard → Prop) {dashboard : Dashboard}
    {events : List Event}
    (keeps : ∀ before event, (before, event) ∈ dashboard.steps events → invariant before →
      invariant (before.step event).1)
    (initial : invariant dashboard) : invariant (dashboard.run events) := by
  induction events generalizing dashboard with
  | nil => exact initial
  | cons event events ih =>
      refine ih ?_ (keeps dashboard event List.mem_cons_self initial)
      intro before next taken
      exact keeps before next (List.mem_cons_of_mem _ taken)

end CrawlBoard.Dashboard
