import CrawlBoard.Proofs.Dashboard.FixedStore
import CrawlBoard.Proofs.MemoryListing

namespace CrawlBoard

def MemoryStore.fixed (store : MemoryStore) : FixedStore := ⟨store.list, store.fetch⟩

/-- What a pass that is under way has counted, and what it ends with. -/
def CountPass.Correct (objects : List ObjectEntry) : CountPass → Prop
  | .asking token? counted | .waiting token? counted =>
      ∀ start, MemoryStore.start token? = .ok start →
        counted = (objects.take start).countP ObjectEntry.isReport
  | .ended (.ok (some reports)) => reports = objects.countP ObjectEntry.isReport
  | .ended _ => True

namespace CountPass.Correct

variable {objects : List ObjectEntry} {pass : CountPass}

theorem start (objects : List ObjectEntry) : CountPass.start.Correct objects := by
  intro start read
  cases read
  rfl

theorem ask (correct : pass.Correct objects) (cancelled : Bool) :
    (pass.ask cancelled).Correct objects := by
  cases pass with
  | asking token? counted =>
      cases cancelled with
      | true => trivial
      | false => exact correct
  | _ => exact correct

theorem take {token? : Option String} {counted : Nat}
    (correct : (CountPass.waiting token? counted).Correct objects) {start : Nat}
    (read : MemoryStore.start token? = .ok start) (limit : Nat) :
    ((CountPass.waiting token? counted).take (.ok (MemoryStore.page objects start limit))).Correct
      objects := by
  have before : counted = (objects.take start).countP ObjectEntry.isReport := correct start read
  have passed :
      counted + (MemoryStore.page objects start limit).entries.countP ObjectEntry.isReport =
        (objects.take (start + limit)).countP ObjectEntry.isReport := by
    rw [before, List.take_add, List.countP_append]
    rfl
  simp only [CountPass.take, MemoryStore.next?_page, passed]
  by_cases more : start + limit < objects.length
  · rw [if_pos more]
    intro next readNext
    rw [MemoryStore.start_toString readNext]
  · rw [if_neg more]
    have all : objects.take (start + limit) = objects := List.take_of_length_le (Nat.not_lt.mp more)
    rw [all]
    rfl

end CountPass.Correct

namespace Dashboard

structure Counted (objects : List ObjectEntry) (dashboard : Dashboard) : Prop where
  pass : ∀ pass, dashboard.count? = some pass → pass.Correct objects
  total : ∀ reports, dashboard.total = .known reports →
    reports = objects.countP ObjectEntry.isReport

namespace Counted

variable {store : MemoryStore} {before after : Dashboard} {event : Event}

theorem mounted (objects : List ObjectEntry) (pager : Pager) (location : String) (probing : Bool) :
    Counted objects (mount pager location probing) where
  pass := by
    intro pass found
    obtain rfl := Option.some.inj found
    exact .start objects
  total := fun reports known => nomatch known

theorem takeCount {answer : Except StoreError ObjectPage}
    (counted : Counted (store.under before.pager.keyPrefix) before)
    (served : ∀ token? sofar, before.count? = some (.waiting token? sofar) →
      answer = store.list (before.pager.countQuery token?)) :
    Counted (store.under before.pager.keyPrefix) (before.takeCount answer) where
  total := counted.total
  pass := by
    intro later found
    obtain ⟨pass, counting, rfl⟩ := Option.map_eq_some_iff.mp found
    have correct := counted.pass pass counting
    cases pass with
    | waiting token? sofar =>
        cases listed : answer with
        | error error => trivial
        | ok listing =>
            have given := (served token? sofar counting).symm.trans listed
            obtain ⟨start, read, rfl⟩ := MemoryStore.list_ok given
            exact correct.take read _
    | _ => exact correct

theorem change {objects : List ObjectEntry} (counted : Counted objects before)
    (same : objects = store.under before.pager.keyPrefix)
    (change : Change before event after) (served : before.Served store.fixed event) :
    Counted objects after := by
  subst same
  cases change with
  | askCount pass counting =>
      refine ⟨?_, counted.total⟩
      rintro later found
      obtain rfl := Option.some.inj found
      exact (counted.pass pass counting).ask before.unmounted
  | takeCount answer =>
      apply counted.takeCount
      intro token? sofar counting
      cases served _ ((awaited?_takeCount ..).mpr ⟨token?, sofar, counting, rfl⟩)
      rfl
  | settleCount result ended =>
      refine ⟨(fun pass found => nomatch found), fun reports known => ?_⟩
      have correct := counted.pass _ ended
      simp only [settledTotal] at known
      split at known
      · exact counted.total reports known
      · split at known
        · cases known
          exact correct
        · exact counted.total reports known
        · cases known
  | _ => exact ⟨counted.pass, counted.total⟩

end Counted

theorem counted_runAt (store : MemoryStore) (pager : Pager) (location : String) (probing : Bool)
    (events : List Event) :
    Counted (store.under pager.keyPrefix)
      ((mount pager location probing).runAt store.fixed events) := by
  refine runAt_keeps _ (Counted (store.under pager.keyPrefix)) ?_ (.mounted ..) events
  intro before event after same counted change served
  refine counted.change ?_ change served
  rw [same]
  rfl

end Dashboard

end CrawlBoard
