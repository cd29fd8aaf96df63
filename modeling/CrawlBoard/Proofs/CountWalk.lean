import CrawlBoard.Proofs.StoreLog
import Mathlib.Data.List.Chain
/-!
Counting follows the tokens of a store until a listing has none, fails or would be asked for after
the cancellation. What is counted does not depend on how the entries are cut into pages.
-/

namespace CrawlBoard

variable {σ : Type}

namespace Pager

structure Leg where
  token? : Option String
  cancelled : Bool
  answer : Except StoreError ObjectPage

namespace Leg

def entries (leg : Leg) : List ObjectEntry :=
  match leg.answer with
  | .ok page => page.entries
  | .error _ => []

def Counted (leg : Leg) : Prop := leg.cancelled = false ∧ ∃ page, leg.answer = .ok page

end Leg

def counting (pager : Pager) (kind : StoreKind σ) (token? : Option String) (desk : Desk σ) :
    Except StoreError ObjectPage × Desk σ :=
  desk.list kind (pager.countQuery token?)

def leg (pager : Pager) (kind : StoreKind σ) (token? : Option String) (desk : Desk σ) : Leg :=
  ⟨token?, desk.cancelled, (pager.counting kind token? desk).1⟩

/-- Whoever follows the tokens from one of them on, cancelled or not, meets these listings: each has
the token of the one before, and the last one fails or has none. -/
inductive Follows (pager : Pager) (kind : StoreKind σ) :
    Option String → Desk σ → List Leg → Prop
  | failed {token? : Option String} {desk : Desk σ} {error : StoreError}
      (answered : (pager.counting kind token? desk).1 = .error error) :
      Follows pager kind token? desk [pager.leg kind token? desk]
  | last {token? : Option String} {desk : Desk σ} {page : ObjectPage}
      (answered : (pager.counting kind token? desk).1 = .ok page) (ends : page.next? = none) :
      Follows pager kind token? desk [pager.leg kind token? desk]
  | further {token? : Option String} {desk : Desk σ} {page : ObjectPage} {token : String}
      {legs : List Leg} (answered : (pager.counting kind token? desk).1 = .ok page)
      (continues : page.next? = some token)
      (rest : Follows pager kind (some token) (pager.counting kind token? desk).2 legs) :
      Follows pager kind token? desk (pager.leg kind token? desk :: legs)

structure Settles (counted : Nat) (legs : List Leg) (result : Except StoreError (Option Nat)) :
    Prop where
  cancelled : result = .ok none ↔ ∃ leg ∈ legs, leg.cancelled = true
  failed : ∀ error, result = .error error ↔
    (∀ leg ∈ legs, leg.cancelled = false) ∧ ∃ leg ∈ legs, leg.answer = .error error
  counts : ∀ total, result = .ok (some total) ↔ (∀ leg ∈ legs, leg.Counted) ∧
    total = counted + (legs.flatMap Leg.entries).countP ObjectEntry.isReport

namespace Settles

variable {counted : Nat} {leg : Leg} {legs : List Leg} {page : ObjectPage}

theorem of_cancelled (cancelled : leg.cancelled = true) (legs : List Leg) :
    Settles counted (leg :: legs) (.ok none) where
  cancelled := by simp [cancelled]
  failed := by simp [cancelled]
  counts := by simp [Leg.Counted, cancelled]

variable (running : leg.cancelled = false)
include running

theorem of_failed {error : StoreError} (answered : leg.answer = .error error) :
    Settles counted [leg] (.error error) where
  cancelled := by simp [running]
  failed := by simp [running, answered]
  counts := by simp [Leg.Counted, answered]

theorem of_last (answered : leg.answer = .ok page) : Settles counted [leg]
    (.ok (some (counted + page.entries.countP ObjectEntry.isReport))) where
  cancelled := by simp [running]
  failed := by simp [answered]
  counts total := by
    have counted : leg.Counted := ⟨running, page, answered⟩
    have entries : leg.entries = page.entries := by simp [Leg.entries, answered]
    simpa [counted, entries] using eq_comm

theorem further (answered : leg.answer = .ok page) {result : Except StoreError (Option Nat)}
    (rest : Settles (counted + page.entries.countP ObjectEntry.isReport) legs result) :
    Settles counted (leg :: legs) result where
  cancelled := by simp [rest.cancelled, running]
  failed := by simp [rest.failed, running, answered]
  counts := by
    simp [rest.counts, Leg.Counted, Leg.entries, running, answered, List.countP_append,
      Nat.add_assoc]

end Settles

section Walk

variable (pager : Pager) (kind : StoreKind σ) (fuel : Nat)

theorem countFrom_ended (result : Except StoreError (Option Nat)) (desk : Desk σ) :
    pager.countFrom kind fuel (.ended result) desk = (.ended result, desk) := by
  cases fuel <;> rfl

variable {desk : Desk σ} (token? : Option String) (counted : Nat)

theorem countFrom_cancelled (cancelled : desk.cancelled = true) :
    pager.countFrom kind (fuel + 1) (.asking token? counted) desk = (.ended (.ok none), desk) := by
  simp [countFrom, CountPass.ask, cancelled]

theorem countFrom_asking (running : desk.cancelled = false) :
    pager.countFrom kind (fuel + 1) (.asking token? counted) desk =
      pager.countFrom kind fuel
        (CountPass.take (pager.counting kind token? desk).1 (.waiting token? counted))
        (pager.counting kind token? desk).2 := by
  simp [countFrom, CountPass.ask, counting, running]

theorem countFrom_logged (pass : CountPass) (desk : Desk σ) (log : List Asked) :
    (pager.countFrom kind.logged fuel pass (desk.logged log)).1 =
      (pager.countFrom kind fuel pass desk).1 := by
  induction fuel generalizing pass desk log with
  | zero => rfl
  | succ fuel ih =>
      unfold countFrom
      have same : (desk.logged log).cancelled = desk.cancelled := rfl
      rw [same]
      split
      · rw [desk.list_logged]
        exact ih _ _ _
      · rfl

end Walk

def queries (pager : Pager) (legs : List Leg) : List Asked :=
  legs.map fun leg => .listing (pager.countQuery leg.token?)

/-- Those that are asked for: all in front of the first one after the cancellation. -/
def made (legs : List Leg) : List Leg := legs.takeWhile fun leg => !leg.cancelled

section Settling

variable {pager : Pager} {kind : StoreKind σ} {token? : Option String} {desk : Desk σ}

def Ends (pager : Pager) (kind : StoreKind σ) (token? : Option String) (desk : Desk σ)
    (counted : Nat) (legs : List Leg) (result : Except StoreError (Option Nat)) : Prop :=
  Settles counted legs result ∧ ∀ fuel log, legs.length ≤ fuel → ∃ last : Desk σ,
    pager.countFrom kind.logged fuel (.asking token? counted) (desk.logged log) =
      (.ended result, last.logged (log ++ pager.queries (made legs)))

theorem ends_cancelled (cancelled : desk.cancelled = true) (counted : Nat) (legs : List Leg) :
    Ends pager kind token? desk counted (pager.leg kind token? desk :: legs) (.ok none) := by
  refine ⟨.of_cancelled cancelled legs, fun fuel log enough => ⟨desk, ?_⟩⟩
  obtain ⟨fuel, rfl⟩ := Nat.exists_eq_add_of_le' (Nat.le_trans (Nat.succ_pos _) enough)
  have none : made (pager.leg kind token? desk :: legs) = [] :=
    List.takeWhile_cons_of_neg (by simp [leg, cancelled])
  have stops := @countFrom_cancelled _ pager kind.logged fuel (desk.logged log) token? counted
    cancelled
  rw [none, queries, List.map_nil, List.append_nil]
  exact stops

theorem made_cons (running : desk.cancelled = false) (legs : List Leg) :
    pager.queries (made (pager.leg kind token? desk :: legs)) =
      .listing (pager.countQuery token?) :: pager.queries (made legs) := by
  have first : made (pager.leg kind token? desk :: legs) =
      pager.leg kind token? desk :: made legs :=
    List.takeWhile_cons_of_pos (by simp [leg, running])
  rw [first]
  rfl

theorem countFrom_logged_asking (running : desk.cancelled = false) (counted fuel : Nat)
    (log : List Asked) :
    pager.countFrom kind.logged (fuel + 1) (.asking token? counted) (desk.logged log) =
      pager.countFrom kind.logged fuel
        (CountPass.take (pager.counting kind token? desk).1 (.waiting token? counted))
        ((pager.counting kind token? desk).2.logged
          (log ++ [.listing (pager.countQuery token?)])) :=
  pager.countFrom_asking kind.logged fuel token? counted running

theorem ends_single (running : desk.cancelled = false) {counted : Nat}
    {result : Except StoreError (Option Nat)}
    (settles : Settles counted [pager.leg kind token? desk] result)
    (taken : CountPass.take (pager.counting kind token? desk).1 (.waiting token? counted) =
      .ended result) :
    Ends pager kind token? desk counted [pager.leg kind token? desk] result := by
  refine ⟨settles, fun fuel log enough => ⟨(pager.counting kind token? desk).2, ?_⟩⟩
  obtain ⟨fuel, rfl⟩ := Nat.exists_eq_add_of_le' enough
  rw [List.length_singleton, countFrom_logged_asking running, taken, countFrom_ended,
    made_cons running]
  rfl

theorem ends_further (running : desk.cancelled = false) {counted : Nat} {page : ObjectPage}
    {token : String} {legs : List Leg} {result : Except StoreError (Option Nat)}
    (answered : (pager.counting kind token? desk).1 = .ok page)
    (continues : page.next? = some token)
    (rest : Ends pager kind (some token) (pager.counting kind token? desk).2
      (counted + page.entries.countP ObjectEntry.isReport) legs result) :
    Ends pager kind token? desk counted (pager.leg kind token? desk :: legs) result := by
  refine ⟨rest.1.further running answered, fun fuel log enough => ?_⟩
  obtain ⟨fuel, rfl⟩ := Nat.exists_eq_add_of_le' (Nat.le_trans (Nat.succ_pos _) enough)
  have taken : CountPass.take (pager.counting kind token? desk).1 (.waiting token? counted) =
      .asking (some token) (counted + page.entries.countP ObjectEntry.isReport) := by
    simp [CountPass.take, answered, continues]
  obtain ⟨last, ended⟩ := rest.2 fuel (log ++ [.listing (pager.countQuery token?)])
    (Nat.le_of_succ_le_succ enough)
  refine ⟨last, ?_⟩
  rw [countFrom_logged_asking running, taken, ended, made_cons running, List.append_assoc]
  rfl

theorem Follows.ends {legs : List Leg} (follows : Follows pager kind token? desk legs)
    (counted : Nat) : ∃ result, Ends pager kind token? desk counted legs result := by
  induction follows generalizing counted with
  | @failed token? desk error answered =>
      cases cancelled : desk.cancelled with
      | true => exact ⟨_, ends_cancelled cancelled counted _⟩
      | false =>
          have taken : CountPass.take (pager.counting kind token? desk).1
              (.waiting token? counted) = .ended (.error error) := by
            simp [CountPass.take, answered]
          exact ⟨_, ends_single cancelled (.of_failed cancelled answered) taken⟩
  | @last token? desk page answered ends =>
      cases cancelled : desk.cancelled with
      | true => exact ⟨_, ends_cancelled cancelled counted _⟩
      | false =>
          have taken : CountPass.take (pager.counting kind token? desk).1
              (.waiting token? counted) =
                .ended (.ok (some (counted + page.entries.countP ObjectEntry.isReport))) := by
            simp [CountPass.take, answered, ends]
          exact ⟨_, ends_single cancelled (.of_last cancelled answered) taken⟩
  | @further token? desk page token legs answered continues rest ih =>
      cases cancelled : desk.cancelled with
      | true => exact ⟨_, ends_cancelled cancelled counted _⟩
      | false =>
          obtain ⟨result, ended⟩ := ih (counted + page.entries.countP ObjectEntry.isReport)
          exact ⟨result, ends_further cancelled answered continues ended⟩

end Settling

/-- The listing that is asked for next has the token of the one that was answered. -/
def Leg.LeadsTo (leg next : Leg) : Prop :=
  ∃ page token, leg.answer = .ok page ∧ page.next? = some token ∧ next.token? = some token

theorem Follows.chained {pager : Pager} {kind : StoreKind σ} {token? : Option String}
    {desk : Desk σ} {legs : List Leg} (follows : Follows pager kind token? desk legs) :
    legs.head?.map Leg.token? = some token? ∧ legs.IsChain Leg.LeadsTo := by
  induction follows with
  | failed => exact ⟨rfl, List.isChain_singleton _⟩
  | last => exact ⟨rfl, List.isChain_singleton _⟩
  | @further token? desk page token legs answered continues _ ih =>
      refine ⟨rfl, List.isChain_cons.mpr ⟨fun next first => ?_, ih.2⟩⟩
      have same : next.token? = some token := by
        simpa [Option.mem_def.mp first] using ih.1
      exact ⟨page, token, answered, continues, same⟩

def asked (pager : Pager) (kind : StoreKind σ) (fuel : Nat) (desk : Desk σ) : List Asked :=
  (pager.countFrom kind.logged fuel .start (desk.logged [])).2.store.2

theorem Follows.run {pager : Pager} {kind : StoreKind σ} {desk : Desk σ} {legs : List Leg}
    (follows : Follows pager kind none desk legs) :
    ∃ result, Settles 0 legs result ∧ ∀ fuel, legs.length ≤ fuel →
      (pager.countFrom kind fuel .start desk).1 = .ended result ∧
        pager.asked kind fuel desk = pager.queries (made legs) := by
  obtain ⟨result, settles, ends⟩ := follows.ends 0
  refine ⟨result, settles, fun fuel enough => ?_⟩
  obtain ⟨last, ended⟩ := ends fuel [] enough
  constructor
  · rw [← pager.countFrom_logged kind fuel .start desk []]
    exact congrArg Prod.fst ended
  · exact congrArg (fun run => run.2.store.2) ended

/-- Where the tokens of a store come to an end, a count does too: it asks for one listing after the
other, each with the token of the one before, up to the first failure or the cancellation. It
settles on what the listings answered, and how the entries were cut into listings does not matter. -/
theorem count_follows_tokens (pager : Pager) (kind : StoreKind σ) (desk : Desk σ) (legs : List Leg)
    (follows : Follows pager kind none desk legs) :
    ∃ result,
      (∀ fuel, legs.length ≤ fuel →
        (pager.countFrom kind fuel .start desk).1 = .ended result ∧
          pager.asked kind fuel desk = pager.queries (made legs)) ∧
      legs.head?.map Leg.token? = some none ∧ legs.IsChain Leg.LeadsTo ∧ Settles 0 legs result ∧
      ∀ (τ : Type) (otherPager : Pager) (otherKind : StoreKind τ) (otherDesk : Desk τ)
        (otherLegs : List Leg), Follows otherPager otherKind none otherDesk otherLegs →
        (∀ leg ∈ legs, leg.Counted) → (∀ leg ∈ otherLegs, leg.Counted) →
        otherLegs.flatMap Leg.entries = legs.flatMap Leg.entries →
        ∀ fuel, otherLegs.length ≤ fuel →
          (otherPager.countFrom otherKind fuel .start otherDesk).1 = .ended result := by
  obtain ⟨result, settles, ends⟩ := follows.run
  refine ⟨result, ends, follows.chained.1, follows.chained.2, settles, ?_⟩
  intro τ otherPager otherKind otherDesk otherLegs otherFollows counted otherCounted same fuel enough
  obtain ⟨otherResult, otherSettles, otherEnds⟩ := otherFollows.run
  have total := (settles.counts _).mpr ⟨counted, rfl⟩
  have otherTotal := (otherSettles.counts _).mpr ⟨otherCounted, rfl⟩
  rw [(otherEnds fuel enough).1, otherTotal, total, same]

def listings (pages : List (Option String × ObjectPage)) : StoreKind Unit where
  location _ := "store"
  list _ query := ({ answer := fun _ =>
    match pages.lookup query.token? with
    | some page => .ok page
    | none => .error (.notFound (query.token?.getD "")) }, ())
  fetch _ key := ({ answer := fun _ => .error (.notFound key) }, ())

/-- Also where an empty listing stands between two others. -/
theorem reports_cut_differently_count_alike :
    let two := listings [(none, ⟨[⟨"a.json", none⟩, ⟨"b.txt", none⟩], some "2"⟩),
      (some "2", ⟨[⟨"c.json", none⟩], none⟩)]
    let three := listings [(none, ⟨[⟨"a.json", none⟩], some "x"⟩), (some "x", ⟨[], some "y"⟩),
      (some "y", ⟨[⟨"b.txt", none⟩, ⟨"c.json", none⟩], none⟩)]
    let pager := ofPrefix ""
    pager.asked two 2 ⟨(), false⟩ =
        [.listing ⟨"", 1000, none⟩, .listing ⟨"", 1000, some "2"⟩] ∧
      ∃ result, (pager.countFrom two 2 .start ⟨(), false⟩).1 = .ended result ∧
        (pager.countFrom three 3 .start ⟨(), false⟩).1 = .ended result ∧ result = .ok (some 2) := by
  intro two three pager
  have first : (pager.counting two none ⟨(), false⟩).1 =
      .ok ⟨[⟨"a.json", none⟩, ⟨"b.txt", none⟩], some "2"⟩ := rfl
  have second : (pager.counting two (some "2") ⟨(), false⟩).1 = .ok ⟨[⟨"c.json", none⟩], none⟩ := rfl
  have start : (pager.counting three none ⟨(), false⟩).1 = .ok ⟨[⟨"a.json", none⟩], some "x"⟩ := rfl
  have empty : (pager.counting three (some "x") ⟨(), false⟩).1 = .ok ⟨[], some "y"⟩ := rfl
  have closing : (pager.counting three (some "y") ⟨(), false⟩).1 =
      .ok ⟨[⟨"b.txt", none⟩, ⟨"c.json", none⟩], none⟩ := rfl
  obtain ⟨result, run, -, -, settles, alike⟩ := count_follows_tokens pager two ⟨(), false⟩ _
    (.further first rfl (.last second rfl))
  have counted : ∀ leg ∈ [pager.leg two none ⟨(), false⟩, pager.leg two (some "2") ⟨(), false⟩],
      leg.Counted := by
    simp only [List.forall_mem_cons]
    exact ⟨⟨rfl, _, first⟩, ⟨rfl, _, second⟩, fun _ member => absurd member List.not_mem_nil⟩
  have otherCounted : ∀ leg ∈ [pager.leg three none ⟨(), false⟩,
      pager.leg three (some "x") ⟨(), false⟩, pager.leg three (some "y") ⟨(), false⟩],
      leg.Counted := by
    simp only [List.forall_mem_cons]
    exact ⟨⟨rfl, _, start⟩, ⟨rfl, _, empty⟩, ⟨rfl, _, closing⟩,
      fun _ member => absurd member List.not_mem_nil⟩
  refine ⟨(run 2 (Nat.le_refl 2)).2, result, (run 2 (Nat.le_refl 2)).1, ?_,
    (settles.counts 2).mpr ⟨counted, rfl⟩⟩
  exact alike Unit pager three ⟨(), false⟩ _
    (.further start rfl (.further empty rfl (.last closing rfl))) counted otherCounted rfl 3
    (Nat.le_refl 3)

end Pager
end CrawlBoard
