import CrawlBoard.Time.Calendar
/-!
Every day number has a valid date, and the date has that day number. Years are counted from
March within eras of 400 years, as in the conversions themselves.
-/

namespace CrawlBoard.Date

def daysBefore (year : Nat) : Nat := 365 * year + year / 4 - year / 100

def yearOfEra (day : Nat) : Nat := (day - day / 1460 + day / 36524 - day / 146096) / 365

def ofMarchYear (year : Int) (day : Nat) : Date :=
  let month := (5 * day + 2) / 153
  let dayOfMonth := day - (153 * month + 2) / 5 + 1
  if month < 10 then ⟨year, month + 3, dayOfMonth⟩ else ⟨year + 1, month - 9, dayOfMonth⟩

theorem ofDays_eq (days : Int) :
    let day := ((days + 719468) % 146097).toNat
    ofDays days = ofMarchYear ((days + 719468) / 146097 * 400 + yearOfEra day)
      (day - daysBefore (yearOfEra day)) :=
  rfl

section Era

variable {century group day : Nat}

theorem yearOfEra_eq (inEra : century ≤ 3) (inCentury : group ≤ 24) (inGroup : day ≤ 1460)
    (short : group = 24 → day < 1460) :
    yearOfEra (36524 * century + 1461 * group + day) =
      100 * century + 4 * group + min (day / 365) 3 := by
  have centuries : (36524 * century + 1461 * group + day) / 36524 = century := by omega
  have last : (36524 * century + 1461 * group + day) / 146096 = 0 := by omega
  have groups : (36524 * century + 1461 * group + day) / 1460 =
      25 * century + group + (24 * century + group + day) / 1460 := by omega
  have carry : (24 * century + group + day) / 1460 ≤ 1 := by omega
  unfold yearOfEra
  rw [centuries, last, groups]
  omega

theorem daysBefore_eq {rest : Nat} (inCentury : group ≤ 24) (inGroup : rest ≤ 3) :
    daysBefore (100 * century + 4 * group + rest) =
      36524 * century + 1461 * group + 365 * rest := by
  have leaps : (100 * century + 4 * group + rest) / 4 = 25 * century + group := by omega
  have centuries : (100 * century + 4 * group + rest) / 100 = century := by omega
  unfold daysBefore
  omega

theorem daysBefore_succ (year : Nat) :
    daysBefore (year + 1) =
      daysBefore year + 365 + if (year + 1) % 4 = 0 ∧ (year + 1) % 100 ≠ 0 then 1 else 0 := by
  unfold daysBefore
  split <;> omega

end Era

theorem yearOfEra_bounds (day : Nat) (inEra : day < 146097) :
    yearOfEra day ≤ 399 ∧ daysBefore (yearOfEra day) ≤ day ∧
      day < daysBefore (yearOfEra day + 1) + (yearOfEra day + 1) / 400 := by
  -- The last day of an era is the only one beyond four centuries of equal length.
  by_cases last : day = 146096
  · subst last
    decide
  · obtain ⟨century, group, rest, rfl, few, inCentury, inGroup, short⟩ :
        ∃ century group rest, day = 36524 * century + 1461 * group + rest ∧ century ≤ 3 ∧
          group ≤ 24 ∧ rest ≤ 1460 ∧ (group = 24 → rest < 1460) :=
      ⟨day / 36524, day % 36524 / 1461, day % 36524 % 1461, by omega, by omega, by omega, by omega,
        by omega⟩
    have inYear : rest < 365 * min (rest / 365) 3 + 365 + min (rest / 365) 3 / 3 := by omega
    rw [yearOfEra_eq few inCentury inGroup short, daysBefore_succ,
      daysBefore_eq inCentury (Nat.min_le_right _ _)]
    refine ⟨by omega, by omega, ?_⟩
    split <;> omega

theorem toDays_ofMarchYear (year : Int) {day : Nat} (inYear : day ≤ 365) :
    (ofMarchYear year day).toDays = year / 400 * 146097 + year % 400 * 365 + year % 400 / 4
      - year % 400 / 100 + day - 719468 := by
  have months : (5 * day + 2) / 153 ≤ 11 := by omega
  have before : (153 * ((5 * day + 2) / 153) + 2) / 5 ≤ day := by omega
  unfold ofMarchYear toDays
  generalize (5 * day + 2) / 153 = month at *
  simp only
  split
  · have shifted : (month + 3 + 9) % 12 = month := by omega
    have sameYear : ¬ month + 3 ≤ 2 := by omega
    simp only [shifted, sameYear, if_false]
    omega
  · have shifted : (month - 9 + 9) % 12 = month := by omega
    have nextYear : month - 9 ≤ 2 := by omega
    simp only [shifted, nextYear, if_true, Int.add_sub_cancel]
    omega

theorem toDays_ofDays (days : Int) : (ofDays days).toDays = days := by
  obtain ⟨fewYears, begun, notEnded⟩ :=
    yearOfEra_bounds ((days + 719468) % 146097).toNat (by omega)
  rw [ofDays_eq]
  generalize split : ((days + 719468) % 146097).toNat = day at *
  rw [daysBefore_succ] at notEnded
  have inYear : day - daysBefore (yearOfEra day) ≤ 365 := by
    split at notEnded <;> omega
  rw [toDays_ofMarchYear _ inYear]
  generalize yearOfEra day = year at *
  have era : ((days + 719468) / 146097 * 400 + (year : Int)) / 400 = (days + 719468) / 146097 := by
    omega
  have ofEra : ((days + 719468) / 146097 * 400 + (year : Int)) % 400 = year := by omega
  rw [era, ofEra]
  unfold daysBefore at *
  omega

theorem valid_ofMarchYear (year : Int) {day : Nat}
    (inYear : day < 365 + if isLeap (year + 1) then 1 else 0) : (ofMarchYear year day).Valid := by
  have months : (5 * day + 2) / 153 ≤ 11 := by
    split at inYear <;> omega
  unfold ofMarchYear Valid
  generalize shown : (5 * day + 2) / 153 = month at *
  match month, months with
  | 0, _ | 1, _ | 2, _ | 3, _ | 4, _ | 5, _ | 6, _ | 7, _ | 8, _ | 9, _ | 10, _ =>
      simp only [monthLength, Nat.reduceLT, if_true, if_false]
      omega
  | 11, _ =>
      simp only [monthLength, Nat.reduceLT, if_false]
      cases leap : isLeap (year + 1) <;>
        simp only [leap, Bool.false_eq_true, if_true, if_false] at inYear ⊢ <;> omega

theorem valid_ofDays (days : Int) : (ofDays days).Valid := by
  obtain ⟨fewYears, begun, notEnded⟩ :=
    yearOfEra_bounds ((days + 719468) % 146097).toNat (by omega)
  rw [ofDays_eq]
  generalize ((days + 719468) % 146097).toNat = day at *
  rw [daysBefore_succ] at notEnded
  generalize yearOfEra day = year at *
  have leap : isLeap ((days + 719468) / 146097 * 400 + (year : Int) + 1) = true ↔
      (year + 1) % 4 = 0 ∧ ((year + 1) % 100 ≠ 0 ∨ (year + 1) % 400 = 0) := by
    simp only [isLeap, Bool.and_eq_true, Bool.or_eq_true, decide_eq_true_eq]
    omega
  refine valid_ofMarchYear _ ?_
  simp only [leap]
  split <;> split at notEnded <;> omega

theorem monthLength_le (year : Int) (month : Nat) : monthLength year month ≤ 31 := by
  unfold monthLength
  split
  · split <;> decide
  all_goals decide

end CrawlBoard.Date
