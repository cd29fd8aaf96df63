import CrawlBoard.Proofs.Dashboard.Listings
/-!
Going back and forth. A request for a page that is loading or ready only makes it current, and no
work looks at which page is current, so the calls of a run are those it would make without such
requests.
-/

namespace CrawlBoard

def Event.isRequest : Event → Bool
  | .command .unmount => false
  | .command _ => true
  | _ => false

namespace Dashboard

/-- Whether an event asks for no page that is not loading or ready. -/
def revisits (before : Dashboard) : Event → Bool
  | .command command => (before.target? command).all fun page =>
      (before.page? page).any fun present => !present.status.isFailed
  | _ => true

def showing (dashboard : Dashboard) (page : Nat) : Dashboard := { dashboard with current := page }

section Showing

variable (dashboard : Dashboard) (page : Nat)

@[simp] theorem unmounted_showing : (dashboard.showing page).unmounted = dashboard.unmounted := rfl

@[simp] theorem count?_showing : (dashboard.showing page).count? = dashboard.count? := rfl

@[simp] theorem verdict?_showing (load : Load) :
    (dashboard.showing page).verdict? load = dashboard.verdict? load := rfl

theorem place_showing (load : Load) : (dashboard.showing page).place load =
    ((dashboard.place load).1.showing page, (dashboard.place load).2) := by
  unfold place
  split
  · rw [unmounted_showing]
    split <;> rfl
  · rfl

theorem publish_showing (load : Load) :
    (dashboard.showing page).publish load = (dashboard.publish load).showing page := by
  unfold publish
  rw [verdict?_showing]
  split
  · rfl
  · rw [unmounted_showing]
    split <;> rfl

theorem publishCount_showing :
    (dashboard.showing page).publishCount = dashboard.publishCount.showing page := by
  cases counting : dashboard.count? with
  | none => simp only [publishCount, count?_showing, counting]
  | some pass =>
      cases pass with
      | ended result =>
          rw [publishCount_of_ended dashboard result counting,
            publishCount_of_ended (dashboard.showing page) result counting]
          rfl
      | _ => simp only [publishCount, count?_showing, counting]

theorem takeProbe_showing (answer : Except SitemapIndex.ProbeError (Option Nat)) :
    (dashboard.showing page).takeProbe answer = (dashboard.takeProbe answer).showing page := by
  cases probing : dashboard.probing with
  | false =>
      have still : (dashboard.showing page).probing = false := probing
      simp [takeProbe, probing, still]
  | true =>
      rw [takeProbe_of_probing dashboard answer probing,
        takeProbe_of_probing (dashboard.showing page) answer probing]
      rfl

theorem step_showing {event : Event} (work : event.isRequest = false) :
    (dashboard.showing page).step event =
      ((dashboard.step event).1.showing page, (dashboard.step event).2) := by
  have withLoad (serial : Nat) (act shown : Load → Dashboard × List StoreCall)
      (acts : ∀ load, shown load = ((act load).1.showing page, (act load).2)) :
      ((dashboard.load? serial).map shown).getD (dashboard.showing page, []) =
        ((((dashboard.load? serial).map act).getD (dashboard, [])).1.showing page,
          (((dashboard.load? serial).map act).getD (dashboard, [])).2) := by
    cases dashboard.load? serial with
    | none => rfl
    | some load => exact acts load
  cases event with
  | command command =>
      cases command with
      | unmount => rfl
      | _ => cases work
  | askListing serial =>
      refine withLoad serial dashboard.askListing (dashboard.showing page).askListing ?_
      intro load
      unfold askListing
      split <;> rfl
  | takeListing serial answer =>
      refine withLoad serial (fun load => (dashboard.takeListing load answer, []))
        (fun load => ((dashboard.showing page).takeListing load answer, [])) ?_
      intro load
      unfold takeListing
      split <;> rfl
  | place serial =>
      exact withLoad serial dashboard.place (dashboard.showing page).place
        (dashboard.place_showing page)
  | takeFetch serial position answer =>
      refine withLoad serial (fun load => (dashboard.takeFetch load position answer, []))
        (fun load => ((dashboard.showing page).takeFetch load position answer, [])) ?_
      intro load
      unfold takeFetch
      split <;> rfl
  | publish serial =>
      refine withLoad serial (fun load => (dashboard.publish load, []))
        (fun load => ((dashboard.showing page).publish load, [])) ?_
      exact fun load => congrArg (·, []) (dashboard.publish_showing page load)
  | askCount =>
      simp only [step, askCount, count?_showing]
      split <;> rfl
  | takeCount answer => rfl
  | publishCount => exact congrArg (·, []) (dashboard.publishCount_showing page)
  | takeProbe answer => exact congrArg (·, []) (dashboard.takeProbe_showing page answer)

theorem calls_showing {events : List Event} (work : ∀ event ∈ events, event.isRequest = false) :
    (dashboard.showing page).calls events = dashboard.calls events := by
  induction events generalizing dashboard with
  | nil => rfl
  | cons event events ih =>
      have now := dashboard.step_showing page (work event List.mem_cons_self)
      have later := ih (dashboard.step event).1 fun next member =>
        work next (List.mem_cons_of_mem _ member)
      rw [calls_cons, calls_cons, now, later]

end Showing

variable {dashboard : Dashboard}

theorem Coherent.shown_of_request (coherent : Coherent dashboard) {event : Event}
    (request : event.isRequest = true) (revisits : dashboard.revisits event) :
    ∃ page, dashboard.step event = (dashboard.showing page, []) := by
  cases event with
  | command command =>
      have followed := coherent.sequel command
      have noCalls : dashboard.step (.command command) =
          ((dashboard.step (.command command)).1, []) := rfl
      rw [noCalls]
      generalize (dashboard.step (.command command)).1 = after at followed ⊢
      cases followed with
      | refused _ => exact ⟨dashboard.current, rfl⟩
      | unmounted asked _ =>
          cases asked
          cases request
      | shown page _ _ _ => exact ⟨page, rfl⟩
      | loaded page token? target vacant _ _ =>
          have shown : (dashboard.page? page).any fun present => !present.status.isFailed := by
            simpa only [Dashboard.revisits, target, Option.all_some] using revisits
          obtain ⟨present, found, kept⟩ := (Option.any_eq_true ..).mp shown
          simp [vacant present found] at kept
  | _ => cases request

theorem Coherent.continues_of_revisits (coherent : Coherent dashboard) {event : Event}
    (revisits : dashboard.revisits event) : Continues dashboard (dashboard.step event).1 := by
  cases request : event.isRequest with
  | true =>
      obtain ⟨page, shown⟩ := coherent.shown_of_request request revisits
      rw [shown]
      exact .of_same rfl rfl rfl id
  | false =>
      rcases (step_change dashboard event).continues with continues | ⟨command, rfl⟩
      · exact continues
      · cases command with
        | unmount => exact .of_same rfl rfl rfl id
        | _ => cases request

section Run

variable {events : List Event}

theorem Coherent.started_of_revisits (coherent : Coherent dashboard)
    (revisits : ∀ taken ∈ dashboard.steps events, taken.1.revisits taken.2) :
    dashboard.started events = [] := by
  refine List.flatMap_eq_nil_iff.mpr ?_
  rintro ⟨before, event⟩ taken
  have coherentBefore := coherent.of_mem_steps taken
  exact coherentBefore.startedBy_eq_nil (coherentBefore.continues_of_revisits (revisits _ taken))

theorem Coherent.inFlight_of_revisits (coherent : Coherent dashboard)
    (revisits : ∀ taken ∈ dashboard.steps events, taken.1.revisits taken.2) :
    ∀ call ∈ dashboard.calls events, dashboard.InFlight call := by
  induction events generalizing dashboard with
  | nil => exact nofun
  | cons event events ih =>
      intro call made
      have change := step_change dashboard event
      rcases List.mem_append.mp made with now | later
      · exact inFlight_of_made now
      · have inFlight := ih (coherent.change change)
          (fun taken member => revisits taken (List.mem_cons_of_mem _ member)) call later
        have continues := coherent.continues_of_revisits (revisits _ List.mem_cons_self)
        exact inFlight.before continues (pager_of_change change)

theorem Coherent.calls_of_revisits (coherent : Coherent dashboard)
    (revisits : ∀ taken ∈ dashboard.steps events, taken.1.revisits taken.2) :
    dashboard.calls events = dashboard.calls (events.filter fun event => !event.isRequest) := by
  induction events generalizing dashboard with
  | nil => rfl
  | cons event events ih =>
      have rest := ih (coherent.change (step_change dashboard event))
        fun taken member => revisits taken (List.mem_cons_of_mem _ member)
      cases request : event.isRequest with
      | false => rw [List.filter_cons_of_pos (by simp [request]), calls_cons, calls_cons, rest]
      | true =>
          -- The page that is shown by the request makes no difference to the work that follows.
          obtain ⟨page, shown⟩ := coherent.shown_of_request request (revisits _ List.mem_cons_self)
          rw [List.filter_cons_of_neg (by simp [request]), calls_cons, rest, shown, List.nil_append]
          refine dashboard.calls_showing page ?_
          intro next member
          simpa using (List.mem_filter.mp member).2

end Run

end Dashboard

end CrawlBoard
