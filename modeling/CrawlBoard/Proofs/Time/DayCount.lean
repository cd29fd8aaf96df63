import CrawlBoard.Proofs.Time.Calendar
import Mathlib.Data.Int.Init
/-!
Dates counted day by day from 1970-01-01, with the lengths of the months alone. The conversion from
day numbers gives the date that is reached in this way, before that day as well as after it.
-/

namespace CrawlBoard.Date

def next (date : Date) : Date :=
  if date.day < monthLength date.year date.month then { date with day := date.day + 1 }
  else if date.month < 12 then ⟨date.year, date.month + 1, 1⟩
  else ⟨date.year + 1, 1, 1⟩

/-- The date so many days after 1970-01-01, or before it. -/
inductive Counted : Int → Date → Prop
  | epoch : Counted 0 ⟨1970, 1, 1⟩
  | after {days : Int} {date : Date} (counted : Counted days date) : Counted (days + 1) date.next
  | before {days : Int} {date : Date} (valid : date.Valid) (counted : Counted (days + 1) date.next) :
      Counted days date

theorem next_cases {year : Int} {month day : Nat} (valid : Valid ⟨year, month, day⟩) :
    (day < monthLength year month ∧ next ⟨year, month, day⟩ = ⟨year, month, day + 1⟩) ∨
    (day = monthLength year month ∧ month < 12 ∧ next ⟨year, month, day⟩ = ⟨year, month + 1, 1⟩) ∨
    (day = monthLength year month ∧ month = 12 ∧ next ⟨year, month, day⟩ = ⟨year + 1, 1, 1⟩) := by
  obtain ⟨-, inYear, -, inMonth⟩ := valid
  dsimp only at inYear inMonth
  unfold next
  dsimp only
  split
  · rename_i further
    exact .inl ⟨further, rfl⟩
  · rename_i ended
    have last : day = monthLength year month := by omega
    split
    · rename_i further
      exact .inr (.inl ⟨last, further, rfl⟩)
    · exact .inr (.inr ⟨last, by omega, rfl⟩)

theorem next_injective {first second : Date} (validFirst : first.Valid) (validSecond : second.Valid)
    (same : first.next = second.next) : first = second := by
  obtain ⟨year, month, day⟩ := first
  obtain ⟨year', month', day'⟩ := second
  have begun := validFirst.2.2.1
  have begun' := validSecond.2.2.1
  have begunMonth := validFirst.1
  have begunMonth' := validSecond.1
  dsimp only at begun begun' begunMonth begunMonth'
  rcases next_cases validFirst with ⟨-, shape⟩ | ⟨last, inYear, shape⟩ | ⟨last, ends, shape⟩ <;>
    rcases next_cases validSecond with ⟨-, shape'⟩ | ⟨last', inYear', shape'⟩ | ⟨last', ends', shape'⟩ <;>
    rw [shape, shape', Date.mk.injEq] at same
  all_goals
    have years : year = year' := by omega
    have months : month = month' := by omega
    subst years months
    have days : day = day' := by omega
    rw [days]

def marchYearLength (year : Int) : Nat := 365 + if isLeap (year + 1) then 1 else 0

def monthFirst (month : Nat) : Nat := (153 * month + 2) / 5

def inMonth (year : Int) (month day : Nat) : Date :=
  if month < 10 then ⟨year, month + 3, day⟩ else ⟨year + 1, month - 9, day⟩

theorem ofMarchYear_of_month (year : Int) {month day : Nat} (begun : monthFirst month ≤ day)
    (notEnded : day < monthFirst (month + 1)) :
    ofMarchYear year day = inMonth year month (day - monthFirst month + 1) := by
  have shown : (5 * day + 2) / 153 = month := by
    unfold monthFirst at begun notEnded
    omega
  unfold ofMarchYear
  rw [shown]
  rfl

theorem next_inMonth (year : Int) {month day : Nat} (notLast : month ≤ 10)
    (further : day < monthFirst (month + 1) - monthFirst month) :
    (inMonth year month day).next = inMonth year month (day + 1) := by
  match month, notLast with
  | 0, _ | 1, _ | 2, _ | 3, _ | 4, _ | 5, _ | 6, _ | 7, _ | 8, _ | 9, _ | 10, _ =>
      exact if_pos further

theorem next_endOfMonth (year : Int) {month : Nat} (notLast : month ≤ 10) :
    (inMonth year month (monthFirst (month + 1) - monthFirst month)).next =
      inMonth year (month + 1) 1 := by
  match month, notLast with
  | 0, _ | 1, _ | 2, _ | 3, _ | 4, _ | 5, _ | 6, _ | 7, _ | 8, _ | 9, _ | 10, _ => rfl

theorem next_inFebruary (year : Int) (day : Nat) :
    (inMonth year 11 day).next =
      if day + monthFirst 11 < marchYearLength year then inMonth year 11 (day + 1)
      else inMonth (year + 1) 0 1 := by
  have length : day + monthFirst 11 < marchYearLength year ↔ day < monthLength (year + 1) 2 := by
    simp only [monthFirst, marchYearLength, monthLength]
    split <;> omega
  simp only [length]
  rfl

theorem next_ofMarchYear (year : Int) {day : Nat} (inYear : day < marchYearLength year) :
    (ofMarchYear year day).next =
      if day + 1 < marchYearLength year then ofMarchYear year (day + 1)
      else ofMarchYear (year + 1) 0 := by
  obtain ⟨month, begun, notEnded⟩ : ∃ month, monthFirst month ≤ day ∧ day < monthFirst (month + 1) :=
    ⟨(5 * day + 2) / 153, by unfold monthFirst; omega, by unfold monthFirst; omega⟩
  have length : 365 ≤ marchYearLength year ∧ marchYearLength year ≤ 366 := by
    unfold marchYearLength
    split <;> decide
  have months : month ≤ 11 := by
    unfold monthFirst at begun
    omega
  rw [ofMarchYear_of_month year begun notEnded]
  by_cases february : month = 11
  · subst february
    have place : day - monthFirst 11 + 1 + monthFirst 11 = day + 1 := by omega
    rw [next_inFebruary, place]
    split
    · rename_i further
      have within : day + 1 < monthFirst (11 + 1) := by
        unfold monthFirst
        omega
      rw [ofMarchYear_of_month year (Nat.le_succ_of_le begun) within, Nat.succ_sub begun]
    · rfl
  · -- Behind every other month there is one more of the same year.
    have notLast : month ≤ 10 := by omega
    have within : day + 1 < marchYearLength year := by
      unfold monthFirst at notEnded
      omega
    rw [if_pos within]
    by_cases further : day + 1 < monthFirst (month + 1)
    · rw [next_inMonth year notLast (by omega),
        ofMarchYear_of_month year (Nat.le_succ_of_le begun) further, Nat.succ_sub begun]
    · have last : day + 1 = monthFirst (month + 1) := by omega
      have longer : monthFirst (month + 1) < monthFirst (month + 1 + 1) := by
        unfold monthFirst
        omega
      have place : day - monthFirst month + 1 = monthFirst (month + 1) - monthFirst month := by omega
      rw [place, next_endOfMonth year notLast, last,
        ofMarchYear_of_month year (Nat.le_refl _) longer, Nat.sub_self]

def marchFirst (year : Int) : Int :=
  year / 400 * 146097 + daysBefore (year % 400).toNat - 719468

theorem daysBefore_mono {first second : Nat} (later : first ≤ second) :
    daysBefore first ≤ daysBefore second := by
  induction later with
  | refl => exact Nat.le_refl _
  | step _ ih =>
      rw [Nat.succ_eq_add_one, daysBefore_succ]
      omega

theorem yearOfEra_unique {year day : Nat} (inEra : day < 146097) (few : year ≤ 399)
    (begun : daysBefore year ≤ day) (notEnded : day < daysBefore (year + 1) + (year + 1) / 400) :
    yearOfEra day = year := by
  obtain ⟨few', begun', notEnded'⟩ := yearOfEra_bounds day inEra
  rcases Nat.lt_trichotomy (yearOfEra day) year with less | same | more
  · have mono := daysBefore_mono (Nat.succ_le_of_lt less)
    have whole : (yearOfEra day + 1) / 400 = 0 := by omega
    rw [Nat.succ_eq_add_one] at mono
    omega
  · exact same
  · have mono := daysBefore_mono (Nat.succ_le_of_lt more)
    have whole : (year + 1) / 400 = 0 := by omega
    rw [Nat.succ_eq_add_one] at mono
    omega

theorem daysBefore_next (year : Int) :
    daysBefore ((year % 400).toNat + 1) + ((year % 400).toNat + 1) / 400 =
      daysBefore (year % 400).toNat + marchYearLength year := by
  have leap : isLeap (year + 1) = true ↔ ((year % 400).toNat + 1) % 4 = 0 ∧
      (((year % 400).toNat + 1) % 100 ≠ 0 ∨ ((year % 400).toNat + 1) % 400 = 0) := by
    simp only [isLeap, Bool.and_eq_true, Bool.or_eq_true, decide_eq_true_eq]
    omega
  rw [daysBefore_succ, marchYearLength]
  simp only [leap]
  split <;> split <;> omega

theorem marchFirst_succ (year : Int) :
    marchFirst (year + 1) = marchFirst year + marchYearLength year := by
  have length := daysBefore_next year
  unfold marchFirst
  by_cases last : year % 400 = 399
  · -- The last year of 400 has the leap day that the days before a year do not count.
    have era : (year + 1) / 400 = year / 400 + 1 := by omega
    have first : ((year + 1) % 400).toNat = 0 := by omega
    have none : daysBefore 0 = 0 := rfl
    have all : daysBefore (399 + 1) = 146096 := rfl
    rw [era, first, none]
    rw [show (year % 400).toNat = 399 by omega] at length ⊢
    omega
  · have era : (year + 1) / 400 = year / 400 := by omega
    have further : ((year + 1) % 400).toNat = (year % 400).toNat + 1 := by omega
    rw [era, further]
    omega

theorem ofDays_marchFirst_add (year : Int) {day : Nat} (inYear : day < marchYearLength year) :
    ofDays (marchFirst year + day) = ofMarchYear year day := by
  have length := daysBefore_next year
  have inEra : daysBefore (year % 400).toNat + day < 146097 := by
    have mono := daysBefore_mono (by omega : (year % 400).toNat + 1 ≤ 400)
    have all : daysBefore 400 = 146096 := rfl
    omega
  have found := yearOfEra_unique inEra (by omega) (Nat.le_add_right _ _) (by omega)
  have era : (marchFirst year + day + 719468) / 146097 = year / 400 := by
    unfold marchFirst
    omega
  have ofEra : ((marchFirst year + day + 719468) % 146097).toNat =
      daysBefore (year % 400).toNat + day := by
    unfold marchFirst
    omega
  rw [ofDays_eq, era, ofEra, found, Nat.add_sub_cancel_left]
  congr 1
  omega

theorem exists_marchYear (days : Int) :
    ∃ year day, day < marchYearLength year ∧ days = marchFirst year + (day : Nat) := by
  obtain ⟨few, begun, notEnded⟩ := yearOfEra_bounds ((days + 719468) % 146097).toNat (by omega)
  generalize split : ((days + 719468) % 146097).toNat = day at *
  have length := daysBefore_next ((days + 719468) / 146097 * 400 + yearOfEra day)
  have ofEra : (((days + 719468) / 146097 * 400 + yearOfEra day) % 400).toNat = yearOfEra day := by
    omega
  rw [ofEra] at length
  refine ⟨(days + 719468) / 146097 * 400 + yearOfEra day, day - daysBefore (yearOfEra day),
    by omega, ?_⟩
  unfold marchFirst
  rw [ofEra]
  omega

theorem ofDays_succ (days : Int) : ofDays (days + 1) = (ofDays days).next := by
  obtain ⟨year, day, inYear, rfl⟩ := exists_marchYear days
  rw [ofDays_marchFirst_add year inYear, next_ofMarchYear year inYear]
  split
  · rename_i within
    rw [Int.add_assoc]
    exact ofDays_marchFirst_add year within
  · have positive : 0 < marchYearLength (year + 1) := Nat.add_pos_left (by decide) _
    rw [← ofDays_marchFirst_add (year + 1) positive, marchFirst_succ]
    congr 1
    omega

theorem counted_iff {days : Int} {date : Date} : Counted days date ↔ date = ofDays days := by
  constructor
  · intro counted
    -- A step back is undone by the step forth, which is injective on valid dates.
    induction counted with
    | epoch => rfl
    | after counted ih => rw [ofDays_succ, ih]
    | before valid counted ih =>
        exact next_injective valid (valid_ofDays _) (ih.trans (ofDays_succ _))
  · rintro rfl
    induction days with
    | zero => exact .epoch
    | succ days ih => rw [ofDays_succ]; exact .after ih
    | pred days ih =>
        refine .before (valid_ofDays _) ?_
        rw [← ofDays_succ, Int.sub_add_cancel]
        exact ih

end CrawlBoard.Date
