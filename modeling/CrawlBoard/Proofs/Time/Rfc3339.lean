import CrawlBoard.Proofs.Digits
import CrawlBoard.Proofs.Time.Calendar
import CrawlBoard.Time.Rfc3339

namespace CrawlBoard

theorem Instant.ofUnix?_self (instant : Instant) :
    Instant.ofUnix? instant.seconds instant.nanos = some instant :=
  dif_pos ⟨instant.after_first, instant.before_last, instant.nanos_bound⟩

namespace Rfc3339

inductive Offset where
  | utc
  | lowerUtc
  | east (hours : Fin 24) (minutes : Fin 60)
  | west (hours : Fin 24) (minutes : Fin 60)
  deriving DecidableEq, Repr

namespace Offset

def seconds : Offset → Int
  | utc | lowerUtc => 0
  | east hours minutes => hours.val * 3600 + minutes.val * 60
  | west hours minutes => -(hours.val * 3600 + minutes.val * 60)

/-- Offsets are whole minutes. -/
theorem seconds_mod (offset : Offset) : offset.seconds % 60 = 0 := by
  cases offset <;> simp only [seconds] <;> omega

def hoursAndMinutes (hours : Fin 24) (minutes : Fin 60) : String :=
  Digits.pad 2 hours ++ ":" ++ Digits.pad 2 minutes

def text : Offset → String
  | utc => "Z"
  | lowerUtc => "z"
  | east hours minutes => "+" ++ hoursAndMinutes hours minutes
  | west hours minutes => "-" ++ hoursAndMinutes hours minutes

theorem offset?_signed {sign : Char} (signed : sign = '+' ∨ sign = '-') (hours : Fin 24)
    (minutes : Fin 60) :
    offset? (sign :: (hoursAndMinutes hours minutes).toList) =
      some (if sign = '+' then (hours.val * 3600 + minutes.val * 60 : Int)
        else -(hours.val * 3600 + minutes.val * 60), []) := by
  have readHours := Digits.take?_pad (by decide) (by omega : hours.val < 10 ^ 2)
    (':' :: (Digits.pad 2 minutes).toList)
  have readMinutes := Digits.take?_pad (by decide) (by omega : minutes.val < 10 ^ 2) []
  rw [List.append_nil] at readMinutes
  have shown : (hoursAndMinutes hours minutes).toList =
      (Digits.pad 2 hours).toList ++ ':' :: (Digits.pad 2 minutes).toList := by
    simp [hoursAndMinutes]
  have inRange : ¬ (minutes.val > 59 ∨ hours.val > 23) := by omega
  rw [shown]
  rcases signed with rfl | rfl <;> simp [offset?, readHours, readMinutes, char?, inRange]

theorem offset?_text (offset : Offset) : offset? offset.text.toList = some (offset.seconds, []) := by
  cases offset with
  | utc => rfl
  | lowerUtc => rfl
  | east hours minutes =>
      rw [text, String.toList_append]
      exact offset?_signed (.inl rfl) hours minutes
  | west hours minutes =>
      rw [text, String.toList_append]
      exact offset?_signed (.inr rfl) hours minutes

theorem text_head (offset : Offset) :
    ∃ first rest, offset.text.toList = first :: rest ∧ Digits.isDigit first = false ∧
      first ≠ '.' := by
  cases offset with
  | utc => exact ⟨_, _, rfl, rfl, by decide⟩
  | lowerUtc => exact ⟨_, _, rfl, rfl, by decide⟩
  | east hours minutes => exact ⟨_, _, by rw [text, String.toList_append]; rfl, rfl, by decide⟩
  | west hours minutes => exact ⟨_, _, by rw [text, String.toList_append]; rfl, rfl, by decide⟩

end Offset

/-- Fraction digits that denote a number of nanoseconds exactly. -/
structure Denotes (digits : List Char) (nanos : Nat) : Prop where
  decimal : ∀ digit ∈ digits, Digits.isDigit digit = true
  exact : Digits.value digits * 10 ^ 9 = nanos * 10 ^ digits.length

namespace Denotes

variable {digits : List Char} {nanos : Nat}

theorem value_take (denotes : Denotes digits nanos) :
    Digits.value (digits.take 9) * 10 ^ (9 - (digits.take 9).length) = nanos := by
  obtain ⟨decimal, exact⟩ := denotes
  rw [List.length_take]
  by_cases few : digits.length ≤ 9
  · rw [List.take_of_length_le few, Nat.min_eq_right few]
    have whole : 10 ^ 9 = 10 ^ (9 - digits.length) * 10 ^ digits.length := by
      rw [← Nat.pow_add, Nat.sub_add_cancel few]
    rw [whole, ← Nat.mul_assoc] at exact
    exact Nat.eq_of_mul_eq_mul_right (Nat.pow_pos (by decide)) exact
  · let later := digits.drop 9
    have split := Digits.value_append (digits.take 9) later
    have small : Digits.value later < 10 ^ later.length :=
      Digits.value_lt fun digit member => decimal digit (List.mem_of_mem_drop member)
    have whole : 10 ^ digits.length = 10 ^ 9 * 10 ^ later.length := by
      rw [← Nat.pow_add, List.length_drop, Nat.add_sub_cancel' (Nat.le_of_not_le few)]
    have positive : 0 < 10 ^ later.length := Nat.pow_pos (by decide)
    rw [List.take_append_drop] at split
    rw [whole, split, ← Nat.mul_assoc, Nat.mul_right_comm] at exact
    have cut := Nat.eq_of_mul_eq_mul_right (by decide : 0 < 10 ^ 9) exact
    have quotient := congrArg (· / 10 ^ later.length) cut
    simp only [Nat.mul_comm _ (10 ^ later.length), Nat.mul_add_div positive,
      Nat.mul_div_cancel_left _ positive, Nat.div_eq_of_lt small, Nat.add_zero] at quotient
    rw [Nat.min_eq_left (Nat.le_of_not_le few), Nat.sub_self, Nat.pow_zero, Nat.mul_one, quotient]

theorem fraction?_append (denotes : Denotes digits nanos) {first : Char} {rest : List Char}
    (noDigit : Digits.isDigit first = false) (noPoint : first ≠ '.') :
    fraction? ((if digits = [] then [] else '.' :: digits) ++ first :: rest) =
      some (nanos, first :: rest) := by
  by_cases none : digits = []
  · subst none
    have zero : nanos = 0 := by simpa [Digits.value] using denotes.exact.symm
    simp [fraction?, noPoint, zero]
  · have taken : (digits ++ first :: rest).takeWhile Digits.isDigit = digits := by
      rw [List.takeWhile_append_of_pos denotes.decimal,
        List.takeWhile_cons_of_neg (by simp [noDigit]), List.append_nil]
    have left : (digits ++ first :: rest).dropWhile Digits.isDigit = first :: rest := by
      rw [List.dropWhile_append_of_pos denotes.decimal,
        List.dropWhile_cons_of_neg (by simp [noDigit])]
    simp only [if_neg none, List.cons_append, fraction?, taken, left]
    exact congrArg (fun nanos => some (nanos, first :: rest)) denotes.value_take

end Denotes

/-- How an instant is written. -/
structure Style where
  offset : Offset := .utc
  separator : Char := 'T'
  digits : List Char
  deriving DecidableEq, Repr

namespace Style

variable (style : Style) (instant : Instant)

def clock : Int := instant.seconds + style.offset.seconds

def date : Date := Date.ofDays (style.clock instant / 86400)

def secondOfDay : Nat := (style.clock instant % 86400).toNat

def fraction : List Char := if style.digits = [] then [] else '.' :: style.digits

def text : String :=
  dateText (style.date instant) ++ String.singleton style.separator
    ++ Digits.pad 2 (style.secondOfDay instant / 3600) ++ ":"
    ++ Digits.pad 2 (style.secondOfDay instant / 60 % 60) ++ ":"
    ++ Digits.pad 2 (style.secondOfDay instant % 60 + instant.nanos / 1000000000)
    ++ String.ofList style.fraction ++ style.offset.text

structure Fits : Prop where
  separator : style.separator ∈ ['T', 't', ' ']
  year : 0 ≤ (style.date instant).year ∧ (style.date instant).year ≤ 9999
  fraction : Denotes style.digits instant.fraction

theorem secondOfDay_lt : style.secondOfDay instant < 86400 := by
  unfold secondOfDay
  omega

variable {style instant}

theorem instant?_date :
    instant? (style.date instant) (style.secondOfDay instant / 3600)
      (style.secondOfDay instant / 60 % 60)
      (style.secondOfDay instant % 60 + instant.nanos / 1000000000) instant.fraction
      style.offset.seconds = some instant := by
  have inDay := style.secondOfDay_lt instant
  have days : (style.date instant).toDays = style.clock instant / 86400 := Date.toDays_ofDays _
  have clock : style.secondOfDay instant = style.clock instant % 86400 :=
    Int.toNat_of_nonneg (Int.emod_nonneg _ (by decide))
  have valid : (style.date instant).Valid := Date.valid_ofDays _
  have leap := instant.nanos_bound
  have inRange : style.secondOfDay instant / 3600 ≤ 23 ∧ style.secondOfDay instant / 60 % 60 ≤ 59 ∧
      style.secondOfDay instant % 60 + instant.nanos / 1000000000 ≤ 60 := by
    omega
  have seconds : style.clock instant = instant.seconds + style.offset.seconds := rfl
  have second : (style.secondOfDay instant % 60 + instant.nanos / 1000000000 = 60) ↔
      1000000000 ≤ instant.nanos := by
    have minutes : style.offset.seconds % 60 = 0 := style.offset.seconds_mod
    omega
  unfold instant?
  rw [if_pos ⟨valid, inRange⟩]
  simp only [second, days]
  rw [← instant.ofUnix?_self]
  unfold Instant.fraction
  congr 1
  · split <;> omega
  · split <;> omega

theorem toList_text : (style.text instant).toList =
    (yearText (style.date instant).year).toList ++ '-' ::
    ((Digits.pad 2 (style.date instant).month).toList ++ '-' ::
    ((Digits.pad 2 (style.date instant).day).toList ++ style.separator ::
    ((Digits.pad 2 (style.secondOfDay instant / 3600)).toList ++ ':' ::
    ((Digits.pad 2 (style.secondOfDay instant / 60 % 60)).toList ++ ':' ::
    ((Digits.pad 2 (style.secondOfDay instant % 60 + instant.nanos / 1000000000)).toList ++
    (style.fraction ++ style.offset.text.toList)))))) := by
  simp [text, dateText]

theorem parse?_text (fits : style.Fits instant) : parse? (style.text instant) = some instant := by
  have year : yearText (style.date instant).year = Digits.pad 4 (style.date instant).year.toNat :=
    if_pos fits.year
  have fraction : fraction? (style.fraction ++ style.offset.text.toList) =
      some (instant.fraction, style.offset.text.toList) := by
    obtain ⟨first, rest, shown, noDigit, noPoint⟩ := style.offset.text_head
    rw [shown]
    exact fits.fraction.fraction?_append noDigit noPoint
  have separator :
      (style.separator == 'T' || style.separator == 't' || style.separator == ' ') = true := by
    simpa [or_assoc] using fits.separator
  have inDay := style.secondOfDay_lt instant
  obtain ⟨-, inYear, -, inMonth⟩ : (style.date instant).Valid := Date.valid_ofDays _
  have short := Date.monthLength_le (style.date instant).year (style.date instant).month
  have leap := instant.nanos_bound
  have fourDigits : (style.date instant).year.toNat < 10 ^ 4 := by
    have years := fits.year
    omega
  unfold parse?
  rw [toList_text, year, Digits.take?_pad (by decide) fourDigits]
  simp only [bind, Option.bind, char?, BEq.rfl, if_true]
  rw [Digits.take?_pad (by decide) (by omega)]
  simp only [BEq.rfl, if_true]
  rw [Digits.take?_pad (by decide) (by omega)]
  simp only [separator, if_true]
  rw [Digits.take?_pad (by decide) (by omega)]
  simp only [BEq.rfl, if_true]
  rw [Digits.take?_pad (by decide) (by omega)]
  simp only [BEq.rfl, if_true]
  rw [Digits.take?_pad (by decide) (by omega)]
  simp only [fraction, style.offset.offset?_text, if_true]
  rw [Int.toNat_of_nonneg fits.year.1]
  exact instant?_date

end Style

inductive Writes (instant : Instant) : String → Prop
  | style (style : Style) (fits : style.Fits instant) : Writes instant (style.text instant)

theorem Writes.parse? {instant : Instant} {text : String} (writes : Writes instant text) :
    Rfc3339.parse? text = some instant := by
  obtain ⟨style, fits⟩ := writes
  exact style.parse?_text fits

end Rfc3339

/-- The instant without what is finer than a millisecond. A leap second stays one. -/
def Instant.wholeMillis (instant : Instant) : Instant :=
  { instant with
    nanos := instant.nanos / 1000000 * 1000000
    nanos_bound := by have bound := instant.nanos_bound; omega }

namespace Rfc3339

section Millis

variable (instant : Instant)

def millisStyle : Style := { digits := (Digits.pad 3 (instant.fraction / 1000000)).toList }

theorem length_millis : (Digits.pad 3 (instant.fraction / 1000000)).toList.length = 3 := by
  have small : instant.fraction / 1000000 < 10 ^ 3 := by
    unfold Instant.fraction
    omega
  exact Digits.length_pad (by decide) small

theorem clock_wholeMillis : (millisStyle instant).clock instant.wholeMillis = instant.seconds :=
  Int.add_zero _

theorem date_wholeMillis : (millisStyle instant).date instant.wholeMillis = instant.date := by
  rw [Style.date, clock_wholeMillis, Instant.date]

theorem renderMillis_eq : renderMillis instant = (millisStyle instant).text instant.wholeMillis := by
  have digits : (Digits.pad 3 (instant.fraction / 1000000)).toList ≠ [] :=
    List.ne_nil_of_length_pos (by rw [length_millis]; decide)
  have fraction : (millisStyle instant).fraction =
      '.' :: (Digits.pad 3 (instant.fraction / 1000000)).toList := if_neg digits
  have leap : instant.wholeMillis.nanos / 1000000000 = instant.nanos / 1000000000 := by
    unfold Instant.wholeMillis
    dsimp only
    omega
  rw [← String.toList_inj, Style.toList_text, date_wholeMillis, Style.secondOfDay,
    clock_wholeMillis, fraction, leap]
  simp [renderMillis, dateText, clockText, Instant.hour, Instant.minute, Instant.second,
    Instant.secondOfDay, millisStyle, Offset.text]

variable {instant}

theorem fits_wholeMillis (year : 0 ≤ instant.date.year ∧ instant.date.year ≤ 9999) :
    (millisStyle instant).Fits instant.wholeMillis where
  separator := List.mem_cons_self
  year := by rwa [date_wholeMillis]
  fraction := {
    decimal := fun digit => Digits.isDigit_of_mem_pad
    exact := by
      have whole : instant.wholeMillis.fraction = instant.fraction / 1000000 * 1000000 := by
        unfold Instant.fraction Instant.wholeMillis
        dsimp only
        omega
      have scale : 1000000 * 10 ^ 3 = 10 ^ 9 := rfl
      rw [millisStyle, Digits.value_pad, length_millis, whole, Nat.mul_assoc, scale] }

theorem parse?_renderMillis (year : 0 ≤ instant.date.year ∧ instant.date.year ≤ 9999) :
    parse? (renderMillis instant) = some instant.wholeMillis := by
  rw [renderMillis_eq]
  exact Style.parse?_text (fits_wholeMillis year)

theorem dateText_of_year {date : Date} (year : 0 ≤ date.year ∧ date.year ≤ 9999) :
    dateText date = Digits.pad 4 date.year.toNat ++ "-" ++ Digits.pad 2 date.month ++ "-"
      ++ Digits.pad 2 date.day := by
  rw [dateText, yearText, if_pos year]

theorem mem_dateText {date : Date} (year : 0 ≤ date.year ∧ date.year ≤ 9999) {char : Char}
    (member : char ∈ (dateText date).toList) : char = '-' ∨ Digits.isDigit char = true := by
  have hyphen : "-".toList = ['-'] := rfl
  simp only [dateText_of_year year, String.toList_append, hyphen, List.mem_append,
    List.mem_singleton] at member
  rcases member with (((digit | mark) | digit) | mark) | digit
  · exact .inr (Digits.isDigit_of_mem_pad digit)
  · exact .inl mark
  · exact .inr (Digits.isDigit_of_mem_pad digit)
  · exact .inl mark
  · exact .inr (Digits.isDigit_of_mem_pad digit)

theorem takeWhile_renderMillis (year : 0 ≤ instant.date.year ∧ instant.date.year ≤ 9999) :
    (renderMillis instant).toList.takeWhile (· != 'T') = (dateText instant.date).toList := by
  have shape : renderMillis instant = dateText instant.date ++ ("T" ++ (clockText instant ++ "." ++
      Digits.pad 3 (instant.fraction / 1000000) ++ "Z")) := by
    simp only [renderMillis, String.append_assoc]
  have free (char : Char) (member : char ∈ (dateText instant.date).toList) :
      (char != 'T') = true := by
    rcases mem_dateText year member with rfl | digit
    · rfl
    · refine bne_iff_ne.mpr ?_
      rintro rfl
      cases digit
  rw [shape, String.toList_append, List.takeWhile_append_of_pos free, String.toList_append]
  exact List.append_nil _

end Millis

end Rfc3339

end CrawlBoard
