import CrawlBoard.Proofs.Dashboard.FixedStore
import CrawlBoard.Proofs.Dashboard.Starts
/-!
The calls of a run. Each belongs to the count or to an unfinished load, and a load makes the call
for its listing once: the step that makes it ends the stage in which it is made.
-/

namespace CrawlBoard

def StoreCall.lists (serial : Nat) : StoreCall → Bool
  | .listing other _ => other = serial
  | _ => false

namespace Dashboard

def InFlight (dashboard : Dashboard) : StoreCall → Prop
  | .count _ => dashboard.count?.isSome
  | .listing serial query => ∃ load ∈ dashboard.loads, load.serial = serial ∧
      query = dashboard.pager.query load.token?
  | .fetch serial _ _ => ∃ load ∈ dashboard.loads, load.serial = serial

/-- Whether a load has its listing call before it, which a load that is not started yet has. -/
def owesListing (serial : Nat) (dashboard : Dashboard) : Bool :=
  dashboard.serial ≤ serial ||
    dashboard.loads.any fun load => load.serial = serial && load.stage = .asking

variable {dashboard : Dashboard}

theorem inFlight_of_made {event : Event} {call : StoreCall}
    (made : call ∈ (dashboard.step event).2) : dashboard.InFlight call := by
  cases event with
  | askListing serial =>
      obtain ⟨load, found, asked, rfl⟩ := load?_of_made made
      unfold askListing at asked
      split at asked
      · obtain rfl := List.mem_singleton.mp asked
        exact ⟨load, mem_of_load? found, rfl, rfl⟩
      · cases asked
  | place serial =>
      obtain ⟨load, found, asked, rfl⟩ := load?_of_made made
      unfold place at asked
      split at asked
      · split at asked
        · cases asked
        · obtain ⟨position, entry, _, rfl⟩ := mem_fetchCalls load.serial _ call asked
          exact ⟨load, mem_of_load? found, rfl⟩
      · cases asked
  | askCount =>
      simp only [step, askCount] at made
      split at made
      · rename_i counting
        split at made
        · cases made
        · obtain rfl := List.mem_singleton.mp made
          simp [InFlight, counting]
      · cases made
  | command command => cases made
  | publishCount => cases made
  | takeCount answer => cases made
  | takeProbe answer => cases made
  | _ =>
      obtain ⟨load, _, asked, _⟩ := load?_of_made made
      cases asked

theorem InFlight.before {before after : Dashboard} (continues : Continues before after)
    (pager : after.pager = before.pager) {call : StoreCall} (inFlight : after.InFlight call) :
    before.InFlight call := by
  cases call with
  | count query => exact continues.counting inFlight
  | listing serial query =>
      obtain ⟨load, member, rfl, rfl⟩ := inFlight
      obtain ⟨old, present, same⟩ := continues.loads load member
      exact ⟨old, present, by rw [same], by rw [same, pager]⟩
  | fetch serial position key =>
      obtain ⟨load, member, rfl⟩ := inFlight
      obtain ⟨old, present, same⟩ := continues.loads load member
      exact ⟨old, present, by rw [same]⟩

/-- What a step does about listings: nothing, or it makes the call of a load, or it starts one. -/
inductive Lists (before : Dashboard) : Dashboard × List StoreCall → Prop where
  | quiet (after : Dashboard) (calls : List StoreCall) (serial : after.serial = before.serial)
      (asking : ∀ load, load.stage = .asking → (load ∈ after.loads ↔ load ∈ before.loads))
      (none : ∀ serial, ∀ call ∈ calls, call.lists serial = false) : Lists before (after, calls)
  | call (load : Load) (member : load ∈ before.loads) (asking : load.stage = .asking) :
      Lists before (before.setStage load.serial .listing,
        [.listing load.serial (before.pager.query load.token?)])
  | start (page : Nat) (token? : Option String) : Lists before (before.startLoad page token?, [])

namespace Lists

theorem of_same {after : Dashboard} {calls : List StoreCall}
    (serial : after.serial = dashboard.serial) (loads : after.loads = dashboard.loads)
    (none : ∀ serial, ∀ call ∈ calls, call.lists serial = false) :
    Lists dashboard (after, calls) :=
  .quiet after calls serial (fun _ _ => by rw [loads]) none

theorem of_silent {after : Dashboard} (serial : after.serial = dashboard.serial)
    (loads : after.loads = dashboard.loads) : Lists dashboard (after, []) :=
  of_same serial loads fun _ _ member => absurd member List.not_mem_nil

theorem of_setStage (coherent : Coherent dashboard) {load : Load} (member : load ∈ dashboard.loads)
    (called : load.stage ≠ .asking) (stage : LoadStage) (later : stage ≠ .asking)
    {after : Dashboard} {calls : List StoreCall} (serial : after.serial = dashboard.serial)
    (loads : after.loads = (dashboard.setStage load.serial stage).loads)
    (none : ∀ serial, ∀ call ∈ calls, call.lists serial = false) :
    Lists dashboard (after, calls) := by
  refine .quiet after calls serial ?_ none
  intro other asking
  rw [loads, mem_setStage]
  constructor
  · rintro (⟨present, _⟩ | ⟨old, _, _, rfl⟩)
    · exact present
    · exact absurd asking later
  · intro present
    refine .inl ⟨present, fun same => called ?_⟩
    exact coherent.load_unique present member same ▸ asking

theorem of_dropLoad (coherent : Coherent dashboard) {load : Load} (member : load ∈ dashboard.loads)
    (called : load.stage ≠ .asking) {after : Dashboard} (serial : after.serial = dashboard.serial)
    (loads : after.loads = (dashboard.dropLoad load.serial).loads) :
    Lists dashboard (after, []) := by
  refine .quiet after [] serial ?_ nofun
  intro other asking
  rw [loads, mem_dropLoad]
  refine ⟨And.left, fun present => ⟨present, fun same => called ?_⟩⟩
  exact coherent.load_unique present member same ▸ asking

end Lists

theorem lists_fetchCalls (serial other : Nat) (listed : ListedPage) :
    ∀ call ∈ fetchCalls other listed, call.lists serial = false := by
  intro call member
  obtain ⟨position, entry, _, rfl⟩ := mem_fetchCalls other listed call member
  rfl

theorem lists_publishCount : Lists dashboard (dashboard.publishCount, []) := by
  cases counting : dashboard.count? with
  | none =>
      have idle : dashboard.publishCount = dashboard := by simp only [publishCount, counting]
      rw [idle]
      exact .of_silent rfl rfl
  | some pass =>
      cases pass with
      | ended result =>
          rw [publishCount_of_ended dashboard result counting]
          exact .of_silent rfl rfl
      | _ =>
          have idle : dashboard.publishCount = dashboard := by simp only [publishCount, counting]
          rw [idle]
          exact .of_silent rfl rfl

theorem lists_takeProbe (answer : Except SitemapIndex.ProbeError (Option Nat)) :
    Lists dashboard (dashboard.takeProbe answer, []) := by
  cases probing : dashboard.probing with
  | false =>
      have idle : dashboard.takeProbe answer = dashboard := by simp [takeProbe, probing]
      rw [idle]
      exact .of_silent rfl rfl
  | true =>
      rw [takeProbe_of_probing dashboard answer probing]
      exact .of_silent rfl rfl

theorem Coherent.lists_of_command (coherent : Coherent dashboard) (command : Command) :
    Lists dashboard (dashboard.step (.command command)) := by
  have followed := coherent.sequel command
  have noCalls : dashboard.step (.command command) =
      ((dashboard.step (.command command)).1, []) := rfl
  rw [noCalls]
  generalize (dashboard.step (.command command)).1 = after at followed ⊢
  cases followed with
  | loaded page token? => exact .start page token?
  | _ => exact .of_silent rfl rfl

theorem Coherent.lists_of_place (coherent : Coherent dashboard) {load : Load}
    (member : load ∈ dashboard.loads) : Lists dashboard (dashboard.place load) := by
  unfold place
  split
  · rename_i listed stage
    have called : load.stage ≠ .asking := by simp [stage]
    split
    · exact .of_dropLoad coherent member called rfl rfl
    · exact .of_setStage coherent member called (.fetching (.start listed)) nofun rfl rfl
        fun serial => lists_fetchCalls serial load.serial listed
  · exact .of_silent rfl rfl

theorem Coherent.lists_of_publish (coherent : Coherent dashboard) {load : Load}
    (member : load ∈ dashboard.loads) : Lists dashboard (dashboard.publish load, []) := by
  unfold publish
  cases verdict : dashboard.verdict? load with
  | none => exact .of_silent rfl rfl
  | some status =>
      have called : load.stage ≠ .asking := by
        intro asking
        simp [verdict?, asking] at verdict
      cases unmounted : dashboard.unmounted with
      | true => exact .of_dropLoad coherent member called rfl rfl
      | false => exact .of_dropLoad coherent member called rfl rfl

theorem Coherent.lists (coherent : Coherent dashboard) (event : Event) :
    Lists dashboard (dashboard.step event) := by
  have withLoad (serial : Nat) (act : Load → Dashboard × List StoreCall)
      (acts : ∀ load ∈ dashboard.loads, Lists dashboard (act load)) :
      Lists dashboard (((dashboard.load? serial).map act).getD (dashboard, [])) := by
    cases found : dashboard.load? serial with
    | none => exact .of_silent rfl rfl
    | some load => exact acts load (mem_of_load? found)
  -- Only asking calls a listing, and only a command starts a load; all else is silent.
  cases event with
  | command command => exact coherent.lists_of_command command
  | askListing serial =>
      refine withLoad serial dashboard.askListing ?_
      intro load member
      unfold askListing
      split
      · rename_i asking
        exact .call load member asking
      · exact .of_silent rfl rfl
  | takeListing serial answer =>
      refine withLoad serial (fun load => (dashboard.takeListing load answer, [])) ?_
      intro load member
      unfold takeListing
      split
      · rename_i page listing
        exact .of_setStage coherent member (by simp [listing]) (.listed (.ofListing page)) nofun
          rfl rfl nofun
      · rename_i error listing
        exact .of_setStage coherent member (by simp [listing]) (.refused error) nofun rfl rfl nofun
      · exact .of_silent rfl rfl
  | place serial => exact withLoad serial dashboard.place fun load => coherent.lists_of_place
  | takeFetch serial position answer =>
      refine withLoad serial (fun load => (dashboard.takeFetch load position answer, [])) ?_
      intro load member
      unfold takeFetch
      split
      · rename_i fetching stage
        exact .of_setStage coherent member (by simp [stage])
          (.fetching (fetching.take dashboard.unmounted position answer .empty).1) nofun rfl rfl nofun
      · exact .of_silent rfl rfl
  | publish serial =>
      exact withLoad serial (fun load => (dashboard.publish load, [])) fun load =>
        coherent.lists_of_publish
  | askCount =>
      simp only [step, askCount]
      split
      · refine .of_same rfl rfl ?_
        intro serial call member
        split at member
        · cases member
        · obtain rfl := List.mem_singleton.mp member
          rfl
      · exact .of_silent rfl rfl
  | takeCount answer => exact .of_silent rfl rfl
  | publishCount => exact lists_publishCount
  | takeProbe answer => exact lists_takeProbe answer

theorem owesListing_iff (serial : Nat) : dashboard.owesListing serial = true ↔
    dashboard.serial ≤ serial ∨
      ∃ load ∈ dashboard.loads, load.serial = serial ∧ load.stage = .asking := by
  simp [owesListing]

theorem owesListing_of_asking {load : Load} (member : load ∈ dashboard.loads)
    (asking : load.stage = .asking) : dashboard.owesListing load.serial = true :=
  (owesListing_iff ..).mpr (.inr ⟨load, member, rfl, asking⟩)

theorem owesListing_startLoad (page serial : Nat) (token? : Option String) :
    (dashboard.startLoad page token?).owesListing serial = dashboard.owesListing serial := by
  rw [Bool.eq_iff_iff, owesListing_iff, owesListing_iff]
  simp only [Dashboard.startLoad, List.mem_append, List.mem_singleton]
  constructor
  · rintro (later | ⟨load, present | rfl, same, asking⟩)
    · exact .inl (Nat.le_of_succ_le later)
    · exact .inr ⟨load, present, same, asking⟩
    · exact .inl (Nat.le_of_eq same)
  · rintro (later | ⟨load, present, same, asking⟩)
    · rcases Nat.eq_or_lt_of_le later with now | after
      · exact .inr ⟨_, .inr rfl, now, rfl⟩
      · exact .inl after
    · exact .inr ⟨load, .inl present, same, asking⟩

theorem Coherent.owesListing_call (coherent : Coherent dashboard) {load : Load}
    (member : load ∈ dashboard.loads) (serial : Nat) :
    (dashboard.setStage load.serial .listing).owesListing serial =
      (dashboard.owesListing serial && load.serial ≠ serial) := by
  rw [Bool.eq_iff_iff, Bool.and_eq_true, owesListing_iff, owesListing_iff, decide_eq_true_iff]
  have fresh := coherent.fresh load member
  constructor
  · rintro (later | ⟨other, present, rfl, asking⟩)
    · have later : dashboard.serial ≤ serial := later
      exact ⟨.inl later, Nat.ne_of_lt (Nat.lt_of_lt_of_le fresh later)⟩
    · rcases (mem_setStage ..).mp present with ⟨old, different⟩ | ⟨old, _, _, rfl⟩
      · exact ⟨.inr ⟨other, old, rfl, asking⟩, Ne.symm different⟩
      · cases asking
  · rintro ⟨later | ⟨other, present, rfl, asking⟩, different⟩
    · exact .inl later
    · exact .inr ⟨other, (mem_setStage ..).mpr (.inl ⟨present, Ne.symm different⟩), rfl, asking⟩

/-- A listing call is made when it was owed, and is not owed afterwards. -/
theorem Coherent.listing_calls_step (coherent : Coherent dashboard) (event : Event) (serial : Nat) :
    (dashboard.step event).2.countP (·.lists serial) +
      ((dashboard.step event).1.owesListing serial).toNat =
        (dashboard.owesListing serial).toNat := by
  have listings := coherent.lists event
  generalize dashboard.step event = outcome at listings ⊢
  cases listings with
  | quiet after calls same asking none =>
      have noCall : calls.countP (·.lists serial) = 0 :=
        List.countP_eq_zero.mpr fun call member => by simp [none serial call member]
      have owes : after.owesListing serial = dashboard.owesListing serial := by
        rw [Bool.eq_iff_iff, owesListing_iff, owesListing_iff, same]
        refine or_congr_right (exists_congr fun load => ?_)
        constructor
        · rintro ⟨member, own, stage⟩
          exact ⟨(asking load stage).mp member, own, stage⟩
        · rintro ⟨member, own, stage⟩
          exact ⟨(asking load stage).mpr member, own, stage⟩
      rw [noCall, owes, Nat.zero_add]
  | call load member asking =>
      rw [coherent.owesListing_call member]
      by_cases same : load.serial = serial
      · subst same
        simp [StoreCall.lists, owesListing_of_asking member asking]
      · simp [StoreCall.lists, same]
  | start page token? => rw [owesListing_startLoad, List.countP_nil, Nat.zero_add]

theorem Coherent.listing_calls_run (coherent : Coherent dashboard) (events : List Event)
    (serial : Nat) : (dashboard.calls events).countP (·.lists serial) +
      ((dashboard.run events).owesListing serial).toNat =
        (dashboard.owesListing serial).toNat := by
  induction events generalizing dashboard with
  | nil => exact Nat.zero_add _
  | cons event events ih =>
      have now := coherent.listing_calls_step event serial
      have later := ih (coherent.change (step_change dashboard event))
      rw [calls_cons, List.countP_append, Nat.add_assoc]
      exact (congrArg _ later).trans now

theorem Coherent.load_of_listing_call (coherent : Coherent dashboard) {events : List Event}
    {serial : Nat} {query : ListQuery} (made : .listing serial query ∈ dashboard.calls events) :
    ∃ load ∈ dashboard.loads ++ dashboard.started events, load.serial = serial ∧
      query = dashboard.pager.query load.token? := by
  obtain ⟨⟨before, event⟩, taken, called⟩ := List.mem_flatMap.mp made
  obtain ⟨earlier, later, rfl, rfl⟩ := exists_split_of_mem_steps taken
  obtain ⟨load, member, rfl, rfl⟩ := inFlight_of_made called
  obtain ⟨old, present, same⟩ := coherent.loads_run earlier load member
  have extended : dashboard.started (earlier ++ event :: later) =
      dashboard.started earlier ++ (dashboard.run earlier).started (event :: later) := by
    rw [started, steps_append, List.flatMap_append]
    rfl
  refine ⟨old, ?_, by rw [same], by rw [same, pager_run]⟩
  rw [extended, ← List.append_assoc]
  exact List.mem_append_left _ present

theorem Coherent.askListing_of_owes (coherent : Coherent dashboard) {serial : Nat}
    (started : serial < dashboard.serial) (owes : dashboard.owesListing serial = true) :
    ∃ load ∈ dashboard.loads, load.serial = serial ∧
      (dashboard.step (.askListing serial)).2 =
        [.listing serial (dashboard.pager.query load.token?)] := by
  rcases (owesListing_iff serial).mp owes with later | ⟨load, member, rfl, asking⟩
  · exact absurd started (Nat.not_lt_of_le later)
  · have found : dashboard.load? load.serial = some load := coherent.load?_of_mem member
    refine ⟨load, member, rfl, ?_⟩
    simp [step, found, askListing, asking]

end Dashboard

end CrawlBoard
