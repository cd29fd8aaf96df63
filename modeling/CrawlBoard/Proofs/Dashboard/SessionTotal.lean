import CrawlBoard.Proofs.Dashboard.Retention
import CrawlBoard.Proofs.Dashboard.SessionWalk

namespace CrawlBoard

variable {σ : Type}

/-- Reports on a trail, if it can be followed to its end. -/
def reportsOn? (pages : List ObjectPage) : Option StoreError → Option Nat
  | none => some ((pages.flatMap ObjectPage.entries).countP ObjectEntry.isReport)
  | some _ => none

/-- What is published of a count that has found so many reports, or has failed. -/
def TotalCount.ofCount : Option Nat → TotalCount
  | some reports => .known reports
  | none => .unavailable

/-- In the given states the kind of store answers the listings of the counting at once, and so. -/
structure StoreKind.Counts (kind : StoreKind σ) (states : σ → Prop) (pager : Pager)
    (counting : Option String → Except StoreError ObjectPage) : Prop where
  list (state : σ) (token? : Option String) (inside : states state) :
    Call.Prompt states (kind.list state (pager.countQuery token?)) (counting token?)

theorem StoreKind.Gives.counts {kind : StoreKind σ} {states : σ → Prop} {store : FixedStore}
    (gives : kind.Gives states store) (pager : Pager) :
    kind.Counts states pager fun token? => store.list (pager.countQuery token?) :=
  ⟨fun state token? inside => gives.list state (pager.countQuery token?) inside⟩

namespace Session

open Dashboard

variable {states : σ → Prop} {pager : Pager} {session : Session σ}
  {counting : Option String → Except StoreError ObjectPage}

structure CountsOn (states : σ → Prop) (pager : Pager)
    (counting : Option String → Except StoreError ObjectPage) (session : Session σ) : Prop where
  counts : session.kind.Counts states pager counting
  inside : states session.store
  samePager : session.dashboard.pager = pager
  mounted : session.dashboard.unmounted = false

theorem total_advance_ended {result : Except StoreError (Option Nat)}
    (ended : session.dashboard.count? = some (.ended result)) (fuel : Nat) :
    (advance .count (fuel + 1) session).dashboard.total = session.dashboard.settledTotal result := by
  have due : due? session.dashboard .count = some .publishCount := by simp [due?, ended]
  have published := publishCount_of_ended session.dashboard result ended
  rw [advance, due]
  simp only [step, published, List.foldl_nil]
  rw [advance_of_done (by simp [due?])]

namespace CountsOn

variable (countsOn : session.CountsOn states pager counting)
include countsOn

theorem moved {state : σ} (inside : states state) (pass : CountPass) :
    (session.moved state { session.dashboard with count? := some pass }).CountsOn states pager
      counting :=
  ⟨countsOn.counts, inside, countsOn.samePager, countsOn.mounted⟩

theorem advance_asking {token? : Option String} {counted : Nat} {pass : CountPass}
    (asking : session.dashboard.count? = some (.asking token? counted))
    (taken : CountPass.take (counting token?) (.waiting token? counted) = pass) (fuel : Nat) :
    ∃ state, states state ∧ advance .count (fuel + 1) session =
      advance .count fuel (session.moved state { session.dashboard with count? := some pass }) := by
  have due : due? session.dashboard .count = some .askCount := by simp [due?, asking]
  have stepped : session.dashboard.step .askCount =
      ({ session.dashboard with count? := some (.waiting token? counted) },
        [.count (pager.countQuery token?)]) := by
    simp [step, askCount, asking, CountPass.ask, countsOn.mounted, countsOn.samePager]
  have prompt := countsOn.counts.list session.store token? countsOn.inside
  have issued := issue_of_answered (session.moved session.store
      { session.dashboard with count? := some (.waiting token? counted) })
    (.count (pager.countQuery token?)) prompt.free prompt.mounted
    (congrArg Event.takeCount prompt.answered)
  refine ⟨_, prompt.inside, ?_⟩
  rw [advance, due, ← taken]
  simp only [stepped]
  exact congrArg (advance .count fuel) issued

theorem total_of_ended {token? : Option String} {counted : Nat}
    {result : Except StoreError (Option Nat)}
    (asking : session.dashboard.count? = some (.asking token? counted))
    (taken : CountPass.take (counting token?) (.waiting token? counted) = .ended result)
    (fuel : Nat) :
    (advance .count (fuel + 1 + 1) session).dashboard.total = session.dashboard.settledTotal result := by
  obtain ⟨state, inside, advanced⟩ := countsOn.advance_asking asking taken (fuel + 1)
  rw [advanced]
  exact total_advance_ended rfl fuel

/-- A step for each listing and one to publish the total are enough. -/
theorem total_advance {token? : Option String} {pages : List ObjectPage}
    {failure? : Option StoreError} (trail : Trail counting token? pages failure?) {counted : Nat}
    (asking : session.dashboard.count? = some (.asking token? counted)) (spare : Nat) :
    (advance .count (spare + 1 + (pages.length + failure?.toList.length)) session).dashboard.total =
      .ofCount ((reportsOn? pages failure?).map (counted + ·)) := by
  -- Along the trail from the token that is asked for, with what has been counted before it.
  induction trail generalizing session counted with
  | @last token? page listed ends =>
      have taken : CountPass.take (counting token?) (.waiting token? counted) =
          .ended (.ok (some (counted + page.entries.countP ObjectEntry.isReport))) := by
        simp [CountPass.take, listed, ends]
      refine (countsOn.total_of_ended asking taken spare).trans ?_
      simp [settledTotal, countsOn.mounted, reportsOn?, TotalCount.ofCount]
  | @refused token? error refuses =>
      have taken : CountPass.take (counting token?) (.waiting token? counted) =
          .ended (.error error) := by
        simp [CountPass.take, refuses]
      refine (countsOn.total_of_ended asking taken spare).trans ?_
      simp [settledTotal, countsOn.mounted, reportsOn?, TotalCount.ofCount]
  | @more token? token page pages failure? listed next others ih =>
      have taken : CountPass.take (counting token?) (.waiting token? counted) =
          .asking (some token) (counted + page.entries.countP ObjectEntry.isReport) := by
        simp [CountPass.take, listed, next]
      obtain ⟨state, inside, advanced⟩ := countsOn.advance_asking asking taken
        (spare + 1 + (pages.length + failure?.toList.length))
      have fuel : spare + 1 + ((page :: pages).length + failure?.toList.length) =
          spare + 1 + (pages.length + failure?.toList.length) + 1 := by
        rw [List.length_cons]
        omega
      rw [fuel, advanced, ih (countsOn.moved inside _) rfl]
      cases failure? <;> simp [reportsOn?, List.countP_append, Nat.add_assoc]

theorem total_runTask {pages : List ObjectPage} {failure? : Option StoreError}
    (trail : Trail counting none pages failure?) (granted : session.granted = [])
    (fresh : session.dashboard.count? = some .start) {patience : Nat}
    (enough : pages.length + failure?.toList.length < patience) :
    (runTask patience .count session).dashboard.total = .ofCount (reportsOn? pages failure?) := by
  obtain ⟨spare, same⟩ := Nat.exists_eq_add_of_lt enough
  have fuel : patience = spare + 1 + (pages.length + failure?.toList.length) := by omega
  rw [runTask_of_granted granted, fuel, countsOn.total_advance trail fresh spare]
  simp

end CountsOn

theorem total_settle_mount {replies : Replies} {kind : StoreKind σ}
    (serves : kind.Serves states pager replies) (counts : kind.Counts states pager counting)
    {pages : List ObjectPage} {failure? : Option StoreError}
    (trail : Trail counting none pages failure?) {state : σ} (inside : states state) (probing : Bool)
    {patience : Nat} (enough : 3 ≤ patience)
    (longEnough : pages.length + failure?.toList.length < patience) (later : List Event) :
    (((mount kind state pager probing).settle patience patience).dashboard.run later).total =
      .ofCount (reportsOn? pages failure?) := by
  have opens : Opens states pager replies 0 (mount kind state pager probing) :=
    .mounting serves inside probing
  -- The count runs first and to its end; the load of the first page comes after it.
  obtain ⟨opened, alone, ⟨counted, -, ran⟩, goesOn⟩ := opens.count rfl patience
  let waiting : Session σ := { mount kind state pager probing with ready := [.load 0] }
  have countsOn : CountsOn states pager counting waiting := ⟨counts, inside, rfl, rfl⟩
  have total := countsOn.total_runTask trail rfl rfl longEnough
  obtain ⟨fuel, rfl⟩ := Nat.exists_eq_add_of_le' enough
  obtain ⟨events, -, same⟩ := (opened.settle_load alone enough (fuel + 1)).events
  have published : Published (runTask (fuel + 3) .count waiting).dashboard :=
    ran ▸ ((Published.mounted ..).run counted).1
  have settled := (published.run (events ++ later)).2.total
  rw [goesOn, same, ← run_append, settled, total]
  rw [total]
  cases reportsOn? pages failure? <;> exact nofun

theorem awaitTotal_of_settled (settled : session.dashboard.total ≠ .counting) (steps : Nat) :
    session.awaitTotal steps = .ok session := by
  simp [awaitTotal, settled]

end Session

end CrawlBoard
