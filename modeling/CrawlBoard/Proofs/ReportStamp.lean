import CrawlBoard.Pager.Basic
import CrawlBoard.Proofs.Time.DayCount
import CrawlBoard.Proofs.Time.Rfc3339

namespace CrawlBoard

namespace Pager

section Fetched

variable {entry : ObjectEntry} {answer : Except StoreError StoredObject}

theorem fetched_eq_emptyBody_iff :
    fetched entry answer = .error .emptyBody ↔
      ∃ object, answer = .ok object ∧ ∀ byte ∈ object.body, Blank.isAsciiBlank byte = true := by
  cases answer with
  | error error => simp [fetched]
  | ok object =>
      simp only [fetched, report, Except.ok.injEq, exists_eq_left', ← List.all_eq_true]
      split
      · rename_i blank
        simp [blank]
      · rename_i other
        split <;> simp [other]

theorem fetched_eq_ok_iff {report : Report} :
    fetched entry answer = .ok report ↔
      ∃ object parsed, answer = .ok object ∧
        (∃ byte ∈ object.body, Blank.isAsciiBlank byte = false) ∧
        Report.parse object.body = .ok parsed ∧
        report =
          { parsed with lastModified? := some (stamp object.lastModified? entry.updated?) } := by
  cases answer with
  | error error => simp [fetched]
  | ok object =>
      have blank : object.body.all Blank.isAsciiBlank = false ↔
          ∃ byte ∈ object.body, Blank.isAsciiBlank byte = false := by simp
      simp only [fetched, Pager.report, Except.ok.injEq, exists_and_left, exists_eq_left', ← blank]
      cases object.body.all Blank.isAsciiBlank with
      | true => simp
      | false =>
          cases Report.parse object.body with
          | error failure => simp
          | ok parsed => simp [eq_comm]

end Fetched

section Stamp

variable {fetched? listed? : Option Instant}

theorem stamp_of_none (none : fetched?.or listed? = none) : stamp fetched? listed? = unknownTime := by
  rw [stamp, Option.orElse_eq_orElse, Option.orElse_eq_or, none]

theorem stamp_of_some {time : Instant} (first : fetched?.or listed? = some time) :
    stamp fetched? listed? = Rfc3339.renderMillis time := by
  rw [stamp, Option.orElse_eq_orElse, Option.orElse_eq_or, first]

theorem lastModifiedDate_of_stamp {report : Report} {time : Instant} {date : Date}
    (stamped : report.lastModified? = some (Rfc3339.renderMillis time))
    (counted : Date.Counted (time.seconds / 86400) date) (year : 0 ≤ date.year ∧ date.year ≤ 9999) :
    report.lastModifiedDate = Rfc3339.dateText date := by
  obtain rfl : date = time.date := Date.counted_iff.mp counted
  rw [Report.lastModifiedDate, stamped]
  dsimp only
  rw [Rfc3339.takeWhile_renderMillis year, String.ofList_toList]

end Stamp

/-- The body of an object decides whether there is a report, and it says all of the report but its
time; that is the object's own time, else that of the listing. It is written to the millisecond, can
be read again, and its date is the one that is reached by counting the days from 1970-01-01. -/
theorem fetched_reports_are_stamped (entry : ObjectEntry)
    (answer : Except StoreError StoredObject) :
    (fetched entry answer = .error .emptyBody ↔
      ∃ object, answer = .ok object ∧ ∀ byte ∈ object.body, Blank.isAsciiBlank byte = true) ∧
    (∀ report, fetched entry answer = .ok report ↔
      ∃ object parsed, answer = .ok object ∧
        (∃ byte ∈ object.body, Blank.isAsciiBlank byte = false) ∧
        Report.parse object.body = .ok parsed ∧
        report =
          { parsed with lastModified? := some (stamp object.lastModified? entry.updated?) }) ∧
    ∀ (fetched? listed? : Option Instant) (report : Report),
      report.lastModified? = some (stamp fetched? listed?) →
      (fetched?.or listed? = none →
        report.lastModified? = some "Unknown" ∧ report.lastModifiedDate = "Unknown") ∧
      ∀ time, fetched?.or listed? = some time →
        report.lastModified? = some (Rfc3339.renderMillis time) ∧
        ∀ date, Date.Counted (time.seconds / 86400) date → 0 ≤ date.year → date.year ≤ 9999 →
          Rfc3339.parse? (Rfc3339.renderMillis time) = some time.wholeMillis ∧
          report.lastModifiedDate =
            Digits.pad 4 date.year.toNat ++ "-" ++ Digits.pad 2 date.month ++ "-"
              ++ Digits.pad 2 date.day := by
  refine ⟨fetched_eq_emptyBody_iff, fun report => fetched_eq_ok_iff,
    fun fetched? listed? report stamped => ⟨fun none => ?_, fun time first => ?_⟩⟩
  · rw [stamp_of_none none] at stamped
    refine ⟨stamped, ?_⟩
    rw [Report.lastModifiedDate, stamped]
    decide
  · rw [stamp_of_some first] at stamped
    refine ⟨stamped, fun date counted begun ended => ?_⟩
    have year : 0 ≤ date.year ∧ date.year ≤ 9999 := ⟨begun, ended⟩
    have date_eq : date = time.date := Date.counted_iff.mp counted
    refine ⟨Rfc3339.parse?_renderMillis (date_eq ▸ year), ?_⟩
    rw [← Rfc3339.dateText_of_year year]
    exact lastModifiedDate_of_stamp stamped counted year

/-- A leap second at the end of a year, with digits that are cut off. -/
theorem leap_second_is_stamped :
    let time : Instant := ⟨1483228799, 1123456789, by decide, by decide, .inr (by decide)⟩
    let report : Report :=
      { sitemap := "iow", harvestedUrls := [], failures? := none, seconds := 0, sitesHarvested := 0,
        sitesListed := 0, warnings? := none, sourceLink? := none,
        lastModified? := some (stamp none (some time)) }
    Date.Counted (time.seconds / 86400) ⟨2016, 12, 31⟩ ∧
      report.lastModified? = some "2016-12-31T23:59:60.123Z" ∧
      Rfc3339.parse? "2016-12-31T23:59:60.123Z" =
        some ⟨1483228799, 1123000000, by decide, by decide, .inr (by decide)⟩ ∧
      report.lastModifiedDate = "2016-12-31" := by
  intro time report
  have counted : Date.Counted (time.seconds / 86400) ⟨2016, 12, 31⟩ :=
    Date.counted_iff.mpr (by decide)
  have text : Rfc3339.renderMillis time = "2016-12-31T23:59:60.123Z" := by decide +kernel
  obtain ⟨-, -, stamps⟩ := fetched_reports_are_stamped ⟨"iow.json", some time⟩ (.ok ⟨[], none⟩)
  obtain ⟨stamped, dated⟩ := (stamps none (some time) report rfl).2 time rfl
  obtain ⟨read, date⟩ := dated ⟨2016, 12, 31⟩ counted (by decide) (by decide)
  rw [text] at stamped read
  have whole : time.wholeMillis =
      ⟨1483228799, 1123000000, by decide, by decide, .inr (by decide)⟩ := by decide
  exact ⟨counted, stamped, read.trans (congrArg some whole), date.trans (by decide +kernel)⟩

end Pager

end CrawlBoard
