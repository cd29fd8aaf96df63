import CrawlBoard.Page.Items
import CrawlBoard.Pager.Basic
/-!
What an item holds once its object has been asked for, read off the answer of the store alone.
-/

namespace CrawlBoard

def Report.stamped (report : Report) (time? : Option Instant) : Report :=
  { report with lastModified? := some ((time?.map Rfc3339.renderMillis).getD "Unknown") }

namespace Pager

/-- The status of an item whose entry has been fetched with this answer. -/
inductive Holds (entry : ObjectEntry) : Except StoreError StoredObject → ItemStatus → Prop
  | unreachable (error : StoreError) : Holds entry (.error error) (.failed error.message)
  | blank {object : StoredObject} (blank : ∀ byte ∈ object.body, Blank.isAsciiBlank byte = true) :
      Holds entry (.ok object) (.failed "Empty body")
  | unreadable {object : StoredObject} {failure : Json.Failure}
      (written : ∃ byte ∈ object.body, Blank.isAsciiBlank byte = false)
      (refused : Report.parse object.body = .error failure) :
      Holds entry (.ok object) (.failed ("invalid report JSON: " ++ failure.message object.body))
  | report {object : StoredObject} {parsed : Report}
      (written : ∃ byte ∈ object.body, Blank.isAsciiBlank byte = false)
      (parses : Report.parse object.body = .ok parsed) :
      Holds entry (.ok object) (.loaded (parsed.stamped (object.lastModified?.or entry.updated?)))

theorem stamped_eq (report : Report) (fetched? listed? : Option Instant) :
    { report with lastModified? := some (stamp fetched? listed?) } =
      report.stamped (fetched?.or listed?) := by
  rw [Report.stamped, stamp, Option.orElse_eq_orElse, Option.orElse_eq_or]
  cases fetched?.or listed? <;> rfl

variable {entry : ObjectEntry} {answer : Except StoreError StoredObject} {status : ItemStatus}

theorem holds_outcome (entry : ObjectEntry) (answer : Except StoreError StoredObject) :
    Holds entry answer (.ofOutcome (outcome entry answer)) := by
  cases answer with
  | error error => exact .unreachable error
  | ok object =>
      simp only [outcome, fetched, report]
      split
      · rename_i blank
        exact .blank (List.all_eq_true.mp blank)
      · rename_i visible
        have written : ∃ byte ∈ object.body, Blank.isAsciiBlank byte = false := by
          simpa using visible
        split
        · rename_i failure refused
          exact .unreadable written refused
        · rename_i parsed parses
          rw [stamped_eq]
          exact .report written parses

theorem Holds.unique {other : ItemStatus} (first : Holds entry answer status)
    (second : Holds entry answer other) : status = other := by
  have clash {body : Utf8.Bytes} (written : ∃ byte ∈ body, Blank.isAsciiBlank byte = false)
      (blank : ∀ byte ∈ body, Blank.isAsciiBlank byte = true) : False := by
    obtain ⟨byte, member, visible⟩ := written
    exact Bool.false_ne_true (visible.symm.trans (blank byte member))
  cases first with
  | unreachable error => cases second; rfl
  | blank blank =>
      cases second with
      | blank => rfl
      | unreadable written => exact (clash written blank).elim
      | report written => exact (clash written blank).elim
  | unreadable written refused =>
      cases second with
      | blank blank => exact (clash written blank).elim
      | unreadable _ refusedToo => rw [Except.error.inj (refused.symm.trans refusedToo)]
      | report _ parses => cases refused.symm.trans parses
  | report written parses =>
      cases second with
      | blank blank => exact (clash written blank).elim
      | unreadable _ refused => cases refused.symm.trans parses
      | report _ parsesToo => rw [Except.ok.inj (parses.symm.trans parsesToo)]

theorem holds_iff :
    Holds entry answer status ↔ status = .ofOutcome (outcome entry answer) :=
  ⟨fun holds => holds.unique (holds_outcome entry answer),
    fun same => same ▸ holds_outcome entry answer⟩

end Pager

end CrawlBoard
