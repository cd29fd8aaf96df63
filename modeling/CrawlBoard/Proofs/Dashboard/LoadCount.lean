import CrawlBoard.Proofs.Dashboard.Revisits
/-!
How often a page is loaded. Every load that a run starts makes one listing call, and a page has
one load, and one more for every time it had failed and was gone to again.
-/

namespace CrawlBoard.Dashboard

variable {dashboard : Dashboard}

def opened (page : Nat) (dashboard : Dashboard) : Nat := (dashboard.page? page).isSome.toNat

theorem Coherent.opened_step (coherent : Coherent dashboard) (event : Event) (page : Nat) :
    ((dashboard.step event).1.page? page).isSome ↔
      (dashboard.page? page).isSome ∨ page ∈ dashboard.requestedBy event := by
  rcases coherent.step_cases event with ⟨continues, _, known⟩ | ⟨gone, token?, started, requested, _⟩
  · rw [continues.opened]
    exact ⟨.inl, fun either => either.elim id (known page)⟩
  · rw [started, page?_startLoad, requested, List.mem_singleton]
    by_cases same : page = gone <;> simp [same]

theorem Coherent.opened_run (coherent : Coherent dashboard) (events : List Event) (page : Nat) :
    ((dashboard.run events).page? page).isSome ↔
      (dashboard.page? page).isSome ∨ page ∈ dashboard.requested events := by
  induction events generalizing dashboard with
  | nil => simp [Dashboard.run, requested, steps]
  | cons event events ih =>
      have later := ih (coherent.change (step_change dashboard event))
      have first := coherent.opened_step event page
      rw [requested_cons, List.mem_append, ← or_assoc, ← first]
      exact later

theorem Coherent.loads_balance (coherent : Coherent dashboard) (event : Event) (page : Nat) :
    (dashboard.startedBy event).countP (·.page = page) + dashboard.opened page =
      (dashboard.step event).1.opened page + (dashboard.retriedBy event).count page := by
  rcases coherent.step_cases event with ⟨continues, retried, _⟩ | ⟨gone, token?, started, _, retried⟩
  · simp [coherent.startedBy_eq_nil continues, retried, opened, continues.opened]
  · rw [coherent.startedBy_eq_singleton started, retried, started]
    simp only [opened, page?_startLoad]
    by_cases same : page = gone
    · subst same
      cases (dashboard.page? page).isSome <;> simp
    · have other : gone ≠ page := Ne.symm same
      cases (dashboard.page? gone).isSome <;> simp [same, other]

theorem Coherent.count_started (coherent : Coherent dashboard) (events : List Event) (page : Nat) :
    (dashboard.started events).countP (·.page = page) + dashboard.opened page =
      (dashboard.run events).opened page + (dashboard.retried events).count page := by
  induction events generalizing dashboard with
  | nil => exact Nat.add_comm _ _
  | cons event events ih =>
      have now := coherent.loads_balance event page
      have later := ih (coherent.change (step_change dashboard event))
      rw [started_cons, retried_cons, List.countP_append, List.count_append]
      change _ = ((dashboard.step event).1.run events).opened page + _
      omega

theorem Coherent.requested_of_retried (coherent : Coherent dashboard) {events : List Event}
    {page : Nat} (again : page ∈ dashboard.retried events) : page ∈ dashboard.requested events := by
  obtain ⟨⟨before, event⟩, taken, member⟩ := List.mem_flatMap.mp again
  refine List.mem_flatMap.mpr ⟨(before, event), taken, ?_⟩
  rcases (coherent.of_mem_steps taken).step_cases event with
    ⟨_, retried, _⟩ | ⟨gone, token?, _, requested, retried⟩
  · simp [retried] at member
  · simp only [retried] at member
    split at member
    · simpa [requested] using member
    · cases member

theorem Coherent.serials_started (coherent : Coherent dashboard) (events : List Event) :
    List.range dashboard.serial ++ (dashboard.started events).map (·.serial) =
      List.range (dashboard.run events).serial := by
  induction events generalizing dashboard with
  | nil => simp [started, steps, Dashboard.run]
  | cons event events ih =>
      have later := ih (coherent.change (step_change dashboard event))
      have first : List.range dashboard.serial ++ (dashboard.startedBy event).map (·.serial) =
          List.range (dashboard.step event).1.serial := by
        rcases coherent.step_cases event with ⟨continues, _⟩ | ⟨gone, token?, began, _⟩
        · simp [coherent.startedBy_eq_nil continues, continues.serial]
        · rw [coherent.startedBy_eq_singleton began, began]
          exact List.range_succ.symm
      rw [started_cons, List.map_append, ← List.append_assoc, first]
      exact later

section Mounted

variable (pager : Pager) (location : String) (probing : Bool) (events : List Event)

theorem opened_mounted (page : Nat) :
    ((mount pager location probing).page? page).isSome ↔ page = 0 := by
  rw [mount, page?_startLoad]
  by_cases first : page = 0 <;> simp [first, page?]

theorem owesListing_mounted (serial : Nat) :
    (mount pager location probing).owesListing serial = true := by
  rw [mount, owesListing_startLoad, owesListing_iff]
  exact .inl (Nat.zero_le serial)

theorem count_loads (page : Nat) :
    let mounted := mount pager location probing
    (mounted.loads ++ mounted.started events).countP (·.page = page) =
      if page = 0 ∨ page ∈ mounted.requested events then 1 + (mounted.retried events).count page
      else 0 := by
  intro mounted
  have coherent : Coherent mounted := .mounted ..
  have balance := coherent.count_started events page
  have first : mounted.loads.countP (·.page = page) = mounted.opened page := by
    cases page <;> rfl
  have openedAfter : ((mounted.run events).page? page).isSome ↔
      page = 0 ∨ page ∈ mounted.requested events := by
    rw [coherent.opened_run, opened_mounted]
  rw [List.countP_append, first]
  split
  · rename_i gone
    have isOpen : (mounted.run events).opened page = 1 := by
      rw [opened, openedAfter.mpr gone]
      rfl
    omega
  · -- A page that nobody has gone to is not open, so it cannot have failed either.
    rename_i never
    have isClosed : (mounted.run events).opened page = 0 := by
      rw [opened, Bool.toNat_eq_zero]
      simpa using mt openedAfter.mp never
    have notRetried : (mounted.retried events).count page = 0 :=
      List.count_eq_zero.mpr fun again => never (.inr (coherent.requested_of_retried again))
    omega

theorem serials_loads :
    let mounted := mount pager location probing
    (mounted.loads ++ mounted.started events).map (·.serial) =
      List.range (mounted.run events).serial := by
  intro mounted
  rw [List.map_append]
  exact Coherent.serials_started (.mounted ..) events

/-- A load that there has been has made its listing call, or makes it in its next step. -/
theorem listing_call_of_load {load : Load}
    (member : load ∈ (mount pager location probing).loads ++
      (mount pager location probing).started events) :
    let mounted := mount pager location probing
    let dashboard := mounted.run events
    if dashboard.owesListing load.serial
      then (mounted.calls events).countP (·.lists load.serial) = 0 ∧
        (dashboard.step (.askListing load.serial)).2 =
          [.listing load.serial (pager.query load.token?)]
      else (mounted.calls events).countP (·.lists load.serial) = 1 := by
  intro mounted dashboard
  have fresh : Coherent mounted := .mounted ..
  have serials := serials_loads pager location probing events
  have made : (mounted.calls events).countP (·.lists load.serial) +
      (dashboard.owesListing load.serial).toNat = 1 := by
    rw [fresh.listing_calls_run, owesListing_mounted]
    rfl
  split
  · rename_i owes
    have started : load.serial < dashboard.serial :=
      List.mem_range.mp (serials ▸ List.mem_map_of_mem member)
    obtain ⟨present, presentMember, same, asks⟩ :=
      (fresh.run events).askListing_of_owes started owes
    -- The unfinished load of that number is this one, further on.
    obtain ⟨old, oldMember, staged⟩ := fresh.loads_run events present presentMember
    have sameSerial : old.serial = load.serial := by rw [← same, staged]
    have unique : ((mounted.loads ++ mounted.started events).map (·.serial)).Nodup :=
      serials ▸ List.nodup_range
    obtain rfl : old = load := List.inj_on_of_nodup_map unique oldMember member sameSerial
    have sameToken : present.token? = old.token? := by rw [staged]
    rw [sameToken, pager_run] at asks
    rw [owes] at made
    exact ⟨Nat.succ.inj made, asks⟩
  · rename_i settled
    rw [Bool.eq_false_iff.mpr settled] at made
    exact made

end Mounted

/-- A page has as many loads as it was gone to when it was not open or had failed; page 0 was gone
to when the dashboard was mounted. Every load makes one listing call, for its own token, in the
first step it takes. Visiting a page that has had a load starts none, and requests for pages that
are loading or ready neither start loads nor change the calls of the work that is under way. -/
theorem pages_load_once_and_after_failures (pager : Pager) (location : String) (probing : Bool)
    (events : List Event) :
    let mounted := mount pager location probing
    let dashboard := mounted.run events
    let loads := mounted.loads ++ mounted.started events
    (∀ page, loads.countP (·.page = page) =
      if page = 0 ∨ page ∈ mounted.requested events then 1 + (mounted.retried events).count page
      else 0) ∧
    loads.map (·.serial) = List.range dashboard.serial ∧
    (∀ load ∈ loads, if dashboard.owesListing load.serial
      then (mounted.calls events).countP (·.lists load.serial) = 0 ∧
        (dashboard.step (.askListing load.serial)).2 =
          [.listing load.serial (pager.query load.token?)]
      else (mounted.calls events).countP (·.lists load.serial) = 1) ∧
    (∀ serial query, .listing serial query ∈ mounted.calls events →
      ∃ load ∈ loads, load.serial = serial ∧ query = pager.query load.token?) ∧
    (∀ page, (∃ load ∈ loads, load.page = page) →
      dashboard.startedBy (.command (.visit page)) = []) ∧
    ∀ later, (∀ taken ∈ dashboard.steps later, taken.1.revisits taken.2) →
      dashboard.started later = [] ∧
      dashboard.calls later = dashboard.calls (later.filter fun event => !event.isRequest) ∧
      ∀ call ∈ dashboard.calls later, dashboard.InFlight call := by
  intro mounted dashboard loads
  have fresh : Coherent mounted := .mounted ..
  have coherent : Coherent dashboard := fresh.run events
  have counted := count_loads pager location probing events
  refine ⟨counted, serials_loads pager location probing events, ?_, ?_, ?_, ?_⟩
  · exact fun load => listing_call_of_load pager location probing events
  · exact fun serial query => fresh.load_of_listing_call
  · rintro page ⟨load, member, rfl⟩
    refine coherent.startedBy_visit ?_
    rw [fresh.opened_run, opened_mounted]
    by_contra never
    have none : loads.countP (·.page = load.page) = 0 := (counted load.page).trans (if_neg never)
    exact List.countP_eq_zero.mp none load member (by simp)
  · intro later revisits
    exact ⟨coherent.started_of_revisits revisits, coherent.calls_of_revisits revisits,
      coherent.inFlight_of_revisits revisits⟩

/-- The first page fails and is visited, then gone to again; while the second page is loading,
both are gone to and fro. -/
theorem retried_page_has_two_loads :
    let events := [.askListing 0, .takeListing 0 (.error (.notFound "")), .publish 0,
      .command (.visit 0), .command (.navigate 0), .askListing 1,
      .takeListing 1 (.ok ⟨[], some "t"⟩), .place 1, .publish 1, .command .next]
    let later := [.command .prev, .askListing 2, .command .next, .command (.visit 0)]
    let mounted := mount (.ofPrefix "") "store" false
    let dashboard := mounted.run events
    let loads := mounted.loads ++ mounted.started events
    (loads.countP (·.page = 0) = 2 ∧ loads.countP (·.page = 1) = 1) ∧
      (mounted.calls events).countP (·.lists 1) = 1 ∧
      (dashboard.step (.askListing 2)).2 = [.listing 2 ((Pager.ofPrefix "").query (some "t"))] ∧
      (∃ load ∈ loads, load.serial = 1 ∧
        (Pager.ofPrefix "").query none = (Pager.ofPrefix "").query load.token?) ∧
      dashboard.startedBy (.command (.visit 1)) = [] ∧
      dashboard.started later = [] ∧ dashboard.calls later = dashboard.calls [.askListing 2] := by
  intro events later mounted dashboard loads
  obtain ⟨counted, _, listed, owned, visited, revisited⟩ :=
    pages_load_once_and_after_failures (.ofPrefix "") "store" false events
  have first : ⟨1, 0, none, .asking⟩ ∈ loads := by decide +kernel
  have second : ⟨2, 1, some "t", .asking⟩ ∈ loads := by decide +kernel
  have made := listed _ first
  have owed := listed _ second
  rw [if_neg (by decide +kernel)] at made
  rw [if_pos (by decide +kernel)] at owed
  obtain ⟨none, erased, _⟩ := revisited later (by decide +kernel)
  refine ⟨⟨(counted 0).trans (by decide +kernel), (counted 1).trans (by decide +kernel)⟩, made,
    owed.2, owned 1 _ (by decide +kernel), visited 1 ⟨_, second, rfl⟩, none, erased⟩

end CrawlBoard.Dashboard
