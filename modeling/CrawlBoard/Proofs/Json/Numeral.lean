import CrawlBoard.Json.Reader
import CrawlBoard.Proofs.Digits
import CrawlBoard.Proofs.Encoding

namespace CrawlBoard.Json

open Utf8 (Bytes)

def EndsNumber (rest : Bytes) : Prop :=
  ∀ byte ∈ rest.head?, isDigit byte = false ∧ byte ≠ 0x2E ∧ byte ≠ 0x65 ∧ byte ≠ 0x45

def NoDigit (rest : Bytes) : Prop := ∀ byte ∈ rest.head?, isDigit byte = false

theorem EndsNumber.noDigit {rest : Bytes} (ends : EndsNumber rest) : NoDigit rest :=
  fun byte found => (ends byte found).1

section Digits

variable {rest : Bytes}

theorem EndsNumber.takeWhile_append (ends : EndsNumber rest) (bytes : Bytes) :
    (bytes ++ rest).takeWhile isDigit = bytes.takeWhile isDigit := by
  induction bytes with
  | nil =>
      cases rest with
      | nil => rfl
      | cons byte tail => exact List.takeWhile_cons_of_neg (by simp [(ends byte rfl).1])
  | cons byte bytes ih =>
      rw [List.cons_append]
      by_cases digit : isDigit byte
      · rw [List.takeWhile_cons_of_pos digit, List.takeWhile_cons_of_pos digit, ih]
      · rw [List.takeWhile_cons_of_neg digit, List.takeWhile_cons_of_neg digit]

theorem EndsNumber.dropWhile_append (ends : EndsNumber rest) (bytes : Bytes) :
    (bytes ++ rest).dropWhile isDigit = bytes.dropWhile isDigit ++ rest := by
  have whole := List.takeWhile_append_dropWhile (p := isDigit) (l := bytes ++ rest)
  have front := List.takeWhile_append_dropWhile (p := isDigit) (l := bytes)
  rw [ends.takeWhile_append] at whole
  refine List.append_cancel_left (whole.trans ?_)
  rw [← List.append_assoc, front]

theorem finishReal_append {negative : Bool} {significand : Nat} {exponent : Int} {number : Number}
    {after left : Bytes} (read : finishReal negative significand exponent after = .ok (number, left))
    (rest : Bytes) : finishReal negative significand exponent rest = .ok (number, rest) := by
  unfold finishReal at read ⊢
  cases scaled : scale? significand exponent with
  | none =>
      rw [scaled] at read
      cases read
  | some x =>
      rw [scaled] at read
      cases read
      rfl

theorem after_finishReal {negative : Bool} {significand : Nat} {exponent : Int} {number : Number}
    {after left : Bytes} (read : finishReal negative significand exponent after = .ok (number, left)) :
    left = after := by
  unfold finishReal at read
  split at read
  · cases read
    rfl
  · cases read

theorem EndsNumber.exponentDigits_append (ends : EndsNumber rest) (value : Nat) (bytes : Bytes) :
    (∀ exponent, exponentDigits value bytes = (some exponent, []) →
      exponentDigits value (bytes ++ rest) = (some exponent, rest)) ∧
    (∀ left, exponentDigits value bytes = (none, left) →
      exponentDigits value (bytes ++ rest) = (none, left ++ rest)) := by
  induction bytes generalizing value with
  | nil =>
      refine ⟨?_, fun left read => nomatch read⟩
      intro exponent read
      cases read
      cases rest with
      | nil => rfl
      | cons byte tail =>
          rw [List.nil_append, exponentDigits, if_neg (by simp [(ends byte rfl).1])]
  | cons byte bytes ih =>
      rw [List.cons_append, exponentDigits, exponentDigits]
      by_cases digit : isDigit byte
      · simp only [if_pos digit]
        by_cases large : value * 10 + (byte.toNat - 48) > maxExponent
        · simp only [if_pos large]
          refine ⟨(fun exponent read => nomatch read), fun left read => ?_⟩
          cases read
          rfl
        · simp only [if_neg large]
          exact ih _
      · simp only [if_neg digit]
        exact ⟨(fun exponent read => nomatch read), fun left read => nomatch read⟩

def exponentSign : Bytes → Bool × Bytes
  | 0x2B :: rest => (false, rest)
  | 0x2D :: rest => (true, rest)
  | rest => (false, rest)

def readUnsignedExponent (negative : Bool) (significand : Nat) (exponent : Int) (down : Bool) :
    Bytes → Except Failure (Number × Bytes)
  | [] => fail .endOfValue []
  | byte :: tail =>
      if !isDigit byte then fail .invalidNumber tail
      else match exponentDigits (byte.toNat - 48) tail with
        | (some value, rest) =>
            finishReal negative significand (if down then exponent - value else exponent + value) rest
        | (none, rest) =>
            if significand ≠ 0 ∧ !down then fail .numberOutOfRange rest
            else .ok (.real (withSign negative 0.0), rest.dropWhile isDigit)

theorem readExponent_eq (negative : Bool) (significand : Nat) (exponent : Int) (bytes : Bytes) :
    readExponent negative significand exponent bytes =
      readUnsignedExponent negative significand exponent (exponentSign bytes).1
        (exponentSign bytes).2 := rfl

theorem exponentSign_append {bytes : Bytes} (given : bytes ≠ []) (rest : Bytes) :
    exponentSign (bytes ++ rest) = ((exponentSign bytes).1, (exponentSign bytes).2 ++ rest) := by
  cases bytes with
  | nil => exact absurd rfl given
  | cons byte bytes =>
      by_cases plus : byte = 0x2B
      · subst plus
        rfl
      · by_cases minus : byte = 0x2D
        · subst minus
          rfl
        · simp [exponentSign, plus, minus]

theorem EndsNumber.readUnsignedExponent_append (ends : EndsNumber rest) {negative down : Bool}
    {significand : Nat} {exponent : Int} {bytes : Bytes} {number : Number}
    (read : readUnsignedExponent negative significand exponent down bytes = .ok (number, [])) :
    readUnsignedExponent negative significand exponent down (bytes ++ rest) =
      .ok (number, rest) := by
  cases bytes with
  | nil => cases read
  | cons byte bytes =>
      rw [List.cons_append]
      unfold readUnsignedExponent at read ⊢
      obtain ⟨some_append, none_append⟩ := ends.exponentDigits_append (byte.toNat - 48) bytes
      by_cases digit : isDigit byte = true
      · simp only [digit, Bool.not_true, Bool.false_eq_true, if_false] at read ⊢
        rcases digits : exponentDigits (byte.toNat - 48) bytes with ⟨_ | value, left⟩
        · simp only [digits] at read
          simp only [none_append left digits]
          split at read
          · cases read
          · rename_i inRange
            obtain ⟨rfl, all⟩ := Prod.mk.inj (Except.ok.inj read)
            rw [if_neg inRange, ends.dropWhile_append, all, List.nil_append]
        · simp only [digits] at read
          obtain rfl := (after_finishReal read).symm
          simp only [some_append value digits]
          exact finishReal_append read rest
      · simp only [digit, Bool.not_false, if_true] at read
        cases read

theorem EndsNumber.readExponent_append (ends : EndsNumber rest) {negative : Bool}
    {significand : Nat} {exponent : Int} {bytes : Bytes} {number : Number}
    (read : readExponent negative significand exponent bytes = .ok (number, [])) :
    readExponent negative significand exponent (bytes ++ rest) = .ok (number, rest) := by
  have given : bytes ≠ [] := by
    rintro rfl
    cases read
  rw [readExponent_eq] at read ⊢
  rw [exponentSign_append given]
  exact ends.readUnsignedExponent_append read

def readScaled (negative : Bool) (significand : Nat) (exponent : Int) (after : Bytes) :
    Except Failure (Number × Bytes) :=
  match after with
  | byte :: tail =>
      if byte = 0x65 ∨ byte = 0x45 then readExponent negative significand exponent tail
      else finishReal negative significand exponent after
  | [] => finishReal negative significand exponent after

theorem EndsNumber.readScaled_append (ends : EndsNumber rest) {negative : Bool}
    {significand : Nat} {exponent : Int} {after : Bytes} {number : Number}
    (read : readScaled negative significand exponent after = .ok (number, [])) :
    readScaled negative significand exponent (after ++ rest) = .ok (number, rest) := by
  cases after with
  | nil =>
      have whole := finishReal_append read rest
      cases rest with
      | nil => exact whole
      | cons byte tail =>
          have ⟨_, _, lower, upper⟩ := ends byte rfl
          simpa [readScaled, lower, upper] using whole
  | cons byte tail =>
      simp only [readScaled, List.cons_append] at read ⊢
      split at read
      · rename_i exponential
        rw [if_pos exponential]
        exact ends.readExponent_append read
      · exact nomatch after_finishReal read

theorem readFraction_eq (negative : Bool) (significand : Nat) (exponent : Int) (bytes : Bytes) :
    readFraction negative significand exponent bytes =
      if bytes.takeWhile isDigit = [] then
        if bytes.dropWhile isDigit = [] then failAt .endOfValue (bytes.dropWhile isDigit)
        else failAt .invalidNumber (bytes.dropWhile isDigit)
      else
        let absorbed := absorb significand (bytes.takeWhile isDigit)
        readScaled negative absorbed.1
          (exponent - ((bytes.takeWhile isDigit).length - absorbed.2 : Nat))
          (bytes.dropWhile isDigit) := rfl

theorem EndsNumber.readFraction_append (ends : EndsNumber rest) {negative : Bool}
    {significand : Nat} {exponent : Int} {bytes : Bytes} {number : Number}
    (read : readFraction negative significand exponent bytes = .ok (number, [])) :
    readFraction negative significand exponent (bytes ++ rest) = .ok (number, rest) := by
  rw [readFraction_eq] at read ⊢
  rw [ends.takeWhile_append, ends.dropWhile_append]
  by_cases digits : bytes.takeWhile isDigit = []
  · rw [if_pos digits] at read
    split at read <;> cases read
  · rw [if_neg digits] at read ⊢
    exact ends.readScaled_append read

theorem after_whole {negative : Bool} {significand omitted : Nat} {number : Number}
    {after left : Bytes}
    (read : readNumber.whole negative significand omitted after = .ok (number, left)) :
    left = after := by
  unfold readNumber.whole at read
  split at read
  · cases read
    rfl
  · exact after_finishReal read

theorem whole_append {negative : Bool} {significand omitted : Nat} {number : Number}
    {after left : Bytes}
    (read : readNumber.whole negative significand omitted after = .ok (number, left)) (rest : Bytes) :
    readNumber.whole negative significand omitted rest = .ok (number, rest) := by
  unfold readNumber.whole at read ⊢
  split at read
  · rename_i exact
    cases read
    rw [if_pos exact]
  · rename_i inexact
    rw [if_neg inexact]
    exact finishReal_append read rest

theorem EndsNumber.readNumber_append (ends : EndsNumber rest) {negative : Bool} {bytes : Bytes}
    {number : Number} (read : readNumber negative bytes = .ok (number, [])) :
    readNumber negative (bytes ++ rest) = .ok (number, rest) := by
  unfold readNumber at read ⊢
  rw [ends.takeWhile_append, ends.dropWhile_append]
  cases digits : bytes.takeWhile isDigit with
  | nil =>
      simp only [digits] at read
      split at read <;> cases read
  | cons first others =>
      simp only [digits] at read ⊢
      split at read
      · cases read
      · rename_i plain
        rw [if_neg plain]
        cases after : bytes.dropWhile isDigit with
        | nil =>
            rw [after] at read
            have read := whole_append read rest
            cases rest with
            | nil => exact read
            | cons byte tail =>
                have ⟨_, point, lower, upper⟩ := ends byte rfl
                simpa [point, lower, upper] using read
        | cons byte tail =>
            simp only [after, List.cons_append] at read ⊢
            split at read
            · rename_i point
              rw [if_pos point]
              exact ends.readFraction_append read
            · rename_i notPoint
              rw [if_neg notPoint]
              split at read
              · rename_i exponential
                rw [if_pos exponential]
                exact ends.readExponent_append read
              · exact nomatch after_whole read

end Digits

def decimal (significand : Nat) (digits : Bytes) : Nat :=
  digits.foldl (fun value digit => value * 10 + (digit.toNat - 48)) significand

theorem le_decimal (significand : Nat) (digits : Bytes) :
    significand ≤ decimal significand digits := by
  induction digits generalizing significand with
  | nil => exact Nat.le_refl _
  | cons digit digits ih =>
      have step : significand ≤ significand * 10 + (digit.toNat - 48) := by omega
      exact Nat.le_trans step (ih _)

theorem absorb_eq (significand : Nat) (digits : Bytes)
    (fits : decimal significand digits ≤ maxWord) :
    absorb significand digits = (decimal significand digits, 0) := by
  induction digits generalizing significand with
  | nil => rfl
  | cons digit digits ih =>
      have small := Nat.le_trans (le_decimal _ digits) fits
      rw [absorb, if_neg (Nat.not_lt.mpr small)]
      exact ih _ fits

def digitBytes (number : Nat) : Bytes :=
  (Nat.toDigits 10 number).map fun digit => UInt8.ofNat digit.toNat

theorem toNat_digitByte {number : Nat} {digit : Char} (member : digit ∈ Nat.toDigits 10 number) :
    (UInt8.ofNat digit.toNat).toNat = digit.toNat := by
  have range := Digits.range_of_isDigit (Digits.isDigit_of_mem_toDigits member)
  exact UInt8.toNat_ofNat_of_lt' (Nat.lt_of_le_of_lt range.2 (by decide))

theorem encode_toString (number : Nat) : Utf8.encode (toString number) = digitBytes number := by
  have digits : (toString number).toList = Nat.toDigits 10 number := Nat.toList_repr
  rw [Utf8.encode_eq_flatMap, digits]
  refine Utf8.flatMap_encodeChar_of_ascii fun digit member => ?_
  have range := Digits.range_of_isDigit (Digits.isDigit_of_mem_toDigits member)
  omega

theorem isDigit_of_mem_digitBytes {number : Nat} {byte : UInt8} (member : byte ∈ digitBytes number) :
    isDigit byte = true := by
  obtain ⟨digit, present, rfl⟩ := List.mem_map.mp member
  have range := Digits.range_of_isDigit (Digits.isDigit_of_mem_toDigits present)
  simpa [isDigit, UInt8.le_iff_toNat_le, toNat_digitByte present] using range

theorem decimal_map (significand : Nat) (digits : List Char)
    (bytes : ∀ digit ∈ digits, (UInt8.ofNat digit.toNat).toNat = digit.toNat) :
    decimal significand (digits.map fun digit => UInt8.ofNat digit.toNat) =
      digits.foldl (fun value digit => value * 10 + (digit.toNat - 48)) significand := by
  induction digits generalizing significand with
  | nil => rfl
  | cons digit digits ih =>
      have tail := ih (significand * 10 + (digit.toNat - 48)) fun other member =>
        bytes other (List.mem_cons_of_mem _ member)
      rw [List.map_cons, List.foldl_cons, ← tail, decimal, List.foldl_cons,
        bytes digit List.mem_cons_self]
      rfl

theorem decimal_digitBytes (number : Nat) : decimal 0 (digitBytes number) = number :=
  (decimal_map 0 _ fun _ => toNat_digitByte).trans (Digits.value_toDigits number)

theorem digitBytes_ne_nil (number : Nat) : digitBytes number ≠ [] := by
  rw [digitBytes, Ne, List.map_eq_nil_iff]
  exact Nat.toDigits_ne_nil

theorem head_digitBytes {number : Nat} {others : Bytes}
    (zero : digitBytes number = 0x30 :: others) : others = [] := by
  by_cases positive : 0 < number
  · have front := Digits.head?_toDigits_ne positive
    rw [digitBytes, List.map_eq_cons_iff] at zero
    obtain ⟨digit, digits, shape, same, _⟩ := zero
    have value := toNat_digitByte (shape ▸ List.mem_cons_self : digit ∈ Nat.toDigits 10 number)
    rw [same] at value
    obtain rfl : '0' = digit := Char.toNat_inj.mp value
    rw [shape] at front
    exact absurd rfl front
  · obtain rfl : number = 0 := Nat.eq_zero_of_not_pos positive
    cases zero
    rfl

theorem digitBytes_cases (number : Nat) :
    ∃ first others, digitBytes number = first :: others ∧ ¬ (first = 0x30 ∧ others ≠ []) := by
  cases shape : digitBytes number with
  | nil => exact absurd shape (digitBytes_ne_nil number)
  | cons first others =>
      refine ⟨first, others, rfl, ?_⟩
      rintro ⟨rfl, more⟩
      exact more (head_digitBytes shape)

theorem takeWhile_digits {digits rest : Bytes} (all : ∀ byte ∈ digits, isDigit byte = true)
    (stops : NoDigit rest) :
    (digits ++ rest).takeWhile isDigit = digits ∧ (digits ++ rest).dropWhile isDigit = rest := by
  rw [List.takeWhile_append_of_pos all, List.dropWhile_append_of_pos all]
  cases rest with
  | nil => exact ⟨List.append_nil _, rfl⟩
  | cons byte rest =>
      have other : ¬ isDigit byte = true := by
        simp [stops byte rfl]
      rw [List.takeWhile_cons_of_neg other, List.dropWhile_cons_of_neg other, List.append_nil]
      exact ⟨rfl, rfl⟩

theorem readNumber_digitBytes {number : Nat} (fits : number ≤ maxWord) :
    readNumber false (digitBytes number) = .ok (.unsigned number, []) := by
  have digits : ∀ byte ∈ digitBytes number, isDigit byte = true :=
    fun _ => isDigit_of_mem_digitBytes
  have whole := takeWhile_digits digits (fun _ found => nomatch found : NoDigit [])
  rw [List.append_nil] at whole
  have absorbed : absorb 0 (digitBytes number) = (number, 0) := by
    rw [absorb_eq _ _ (by rwa [decimal_digitBytes]), decimal_digitBytes]
  obtain ⟨first, others, shape, plain⟩ := digitBytes_cases number
  unfold readNumber
  rw [whole.1, whole.2]
  rw [shape] at absorbed ⊢
  simp only [if_neg plain, absorbed]
  rfl

theorem mismatch_ne_ok {α : Type} (expected : String) (rest : Bytes) (result : α × Bytes) :
    mismatch expected rest ≠ .ok result := by
  unfold mismatch
  simp only [bind, Except.bind, fail, failAt]
  repeat' split
  all_goals exact fun same => nomatch same

theorem skipBlanks_append {bytes tail : Bytes} {first : UInt8}
    (shown : skipBlanks bytes = first :: tail) (rest : Bytes) :
    skipBlanks (bytes ++ rest) = first :: (tail ++ rest) := by
  induction bytes with
  | nil => cases shown
  | cons byte bytes ih =>
      unfold skipBlanks at shown ih ⊢
      rw [List.cons_append]
      by_cases blank : isBlank byte
      · rw [List.dropWhile_cons_of_pos blank] at shown ⊢
        exact ih shown
      · rw [List.dropWhile_cons_of_neg blank] at shown ⊢
        cases shown
        rfl

theorem number_eq (expected : String) {bytes tail : Bytes} {first : UInt8}
    (shown : skipBlanks bytes = first :: tail) :
    Json.number expected bytes =
      if first = 0x2D then readNumber true tail
      else if isDigit first then readNumber false (first :: tail)
      else mismatch expected (first :: tail) := by
  unfold Json.number value
  rw [shown]
  by_cases minus : first = 0x2D
  · subst minus
    rfl
  · simp [minus]

/-- A numeral that is read to its end is read the same before anything that ends a number. -/
theorem number_append {expected : String} {bytes : Bytes} {result : Number}
    (read : Json.number expected bytes = .ok (result, [])) {rest : Bytes} (ends : EndsNumber rest) :
    Json.number expected (bytes ++ rest) = .ok (result, rest) := by
  cases shown : skipBlanks bytes with
  | nil =>
      unfold Json.number value at read
      rw [shown] at read
      cases read
  | cons first tail =>
      rw [number_eq expected shown] at read
      rw [number_eq expected (skipBlanks_append shown rest)]
      split at read
      · rename_i minus
        rw [if_pos minus]
        exact ends.readNumber_append read
      · rename_i plus
        rw [if_neg plus]
        split at read
        · rename_i digit
          rw [if_pos digit]
          exact ends.readNumber_append read
        · exact absurd read (mismatch_ne_ok _ _ _)

theorem isBlank_of_isDigit {byte : UInt8} (digit : isDigit byte = true) :
    isBlank byte = false ∧ byte ≠ 0x2D := by
  have range : 48 ≤ byte.toNat ∧ byte.toNat ≤ 57 := by
    simpa [isDigit, UInt8.le_iff_toNat_le] using digit
  simp only [isBlank, Bool.or_eq_false_iff, beq_eq_false_iff_ne, Ne, ← UInt8.toNat_inj,
    UInt8.reduceToNat]
  omega

theorem number_digitBytes {number : Nat} (fits : number ≤ maxWord) (expected : String) :
    Json.number expected (digitBytes number) = .ok (.unsigned number, []) := by
  have read := readNumber_digitBytes fits
  cases shape : digitBytes number with
  | nil => exact absurd shape (digitBytes_ne_nil number)
  | cons first others =>
      have digit : isDigit first = true := isDigit_of_mem_digitBytes (shape ▸ List.mem_cons_self)
      have ⟨notBlank, notMinus⟩ := isBlank_of_isDigit digit
      have shown : skipBlanks (first :: others) = first :: others :=
        List.dropWhile_cons_of_neg (by simp [notBlank])
      rw [number_eq expected shown, if_neg notMinus, if_pos digit, ← shape]
      exact read

end CrawlBoard.Json
