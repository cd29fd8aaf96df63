import CrawlBoard.Text.Digits
import Mathlib.Algebra.Group.Nat.Defs

namespace CrawlBoard.Digits

theorem isDigit_of_mem_toDigits {number : Nat} {digit : Char}
    (member : digit ∈ Nat.toDigits 10 number) : isDigit digit = true := by
  have isDecimal := Nat.isDigit_of_mem_toDigits (by decide) (by decide) member
  simpa [isDigit, Char.isDigit, Char.le_def] using isDecimal

theorem range_of_isDigit {digit : Char} (decimal : isDigit digit = true) :
    48 ≤ digit.toNat ∧ digit.toNat ≤ 57 := by
  simpa [isDigit, Char.le_def, UInt32.le_iff_toNat_le] using decimal

theorem value_toDigits (number : Nat) : value (Nat.toDigits 10 number) = number := by
  have read : Nat.ofDigitChars 10 (Nat.toDigits 10 number) 0 = number :=
    Nat.ofDigitChars_ten_toDigits
  simp only [Nat.ofDigitChars_eq_foldl, Nat.mul_comm] at read
  exact read

theorem toString_injective : Function.Injective (toString : Nat → String) := by
  intro first second same
  have digits : Nat.toDigits 10 first = Nat.toDigits 10 second := by
    rw [← Nat.toList_repr, ← Nat.toList_repr]
    exact congrArg String.toList same
  rw [← value_toDigits first, digits, value_toDigits]

theorem parse_toString (limit number : Nat) :
    parse limit (toString number) = if number ≤ limit then .ok number else .error .tooLarge := by
  have digits : (toString number).toList = Nat.toDigits 10 number := Nat.toList_repr
  have allDigits : (Nat.toDigits 10 number).all isDigit = true :=
    List.all_eq_true.mpr fun _ => isDigit_of_mem_toDigits
  have written := value_toDigits number
  unfold parse
  rw [digits]
  cases shape : Nat.toDigits 10 number with
  | nil => exact absurd shape Nat.toDigits_ne_nil
  | cons first rest =>
      rw [shape] at allDigits written
      have plain : first ≠ '+' := by
        rintro rfl
        simp [isDigit] at allDigits
      simp only [plain, false_and, if_false, allDigits, if_true, written]

def Written (number : Nat) (text : String) : Prop :=
  ∃ digits : List Char, (text.toList = digits ∨ text.toList = '+' :: digits) ∧ digits ≠ [] ∧
    (∀ digit ∈ digits, isDigit digit = true) ∧ value digits = number

theorem written_toString (number : Nat) : Written number (toString number) :=
  ⟨Nat.toDigits 10 number, .inl Nat.toList_repr, Nat.toDigits_ne_nil,
    fun _ => isDigit_of_mem_toDigits, value_toDigits number⟩

theorem mem_of_written {number : Nat} {text : String} (written : Written number text) {char : Char}
    (member : char ∈ text.toList) : char = '+' ∨ isDigit char = true := by
  obtain ⟨digits, shape | shape, -, decimal, -⟩ := written
  · exact .inr (decimal char (shape ▸ member))
  · exact (List.mem_cons.mp (shape ▸ member)).imp_right (decimal char)

theorem parse_eq_ok_iff {limit number : Nat} {text : String} :
    parse limit text = .ok number ↔ Written number text ∧ number ≤ limit := by
  unfold parse
  constructor
  · intro read
    split at read
    · cases read
    · rename_i first rest shape
      -- A lone plus sign is not taken for a sign.
      have parts : ∃ digits, (if first = '+' ∧ rest ≠ [] then rest else first :: rest) = digits ∧
          (first :: rest = digits ∨ first :: rest = '+' :: digits) ∧ digits ≠ [] := by
        by_cases signed : first = '+' ∧ rest ≠ []
        · exact ⟨rest, if_pos signed, .inr (by rw [signed.1]), signed.2⟩
        · exact ⟨first :: rest, if_neg signed, .inl rfl, List.cons_ne_nil first rest⟩
      obtain ⟨digits, unsigned, parts, given⟩ := parts
      simp only [unsigned] at read
      split at read
      · rename_i decimal
        split at read
        · rename_i fits
          cases read
          exact ⟨⟨digits, shape ▸ parts, given, fun digit => List.all_eq_true.mp decimal digit, rfl⟩,
            fits⟩
        · cases read
      · split at read <;> cases read
  · rintro ⟨⟨digits, shape, given, decimal, rfl⟩, fits⟩
    have all : digits.all isDigit = true := List.all_eq_true.mpr decimal
    rcases shape with shape | shape
    · cases digits with
      | nil => exact absurd rfl given
      | cons first rest =>
          have plain : first ≠ '+' := by
            rintro rfl
            exact absurd (decimal '+' List.mem_cons_self) (by decide)
          rw [shape]
          simp only [plain, false_and, if_false, all, if_true, fits]
    · rw [shape]
      simp only [given, ne_eq, not_false_eq_true, and_self, if_true, all, fits]

theorem head?_toDigits_ne {number : Nat} (positive : 0 < number) :
    (Nat.toDigits 10 number).head? ≠ some '0' := by
  induction number using Nat.strongRecOn with
  | ind number ih =>
      rw [Nat.toDigits_eq_if (by decide)]
      split
      · rename_i small
        have digit : ∀ digit < 10, 0 < digit → [Nat.digitChar digit].head? ≠ some '0' := by decide
        exact digit number small positive
      · rename_i large
        have front : 0 < number / 10 := by omega
        rw [List.head?_append, Option.or_of_isSome (List.isSome_head?.mpr Nat.toDigits_ne_nil)]
        exact ih (number / 10) (by omega) front

theorem foldl_digits (start : Nat) (digits : List Char) :
    digits.foldl (fun total digit => total * 10 + (digit.toNat - 48)) start =
      start * 10 ^ digits.length + value digits := by
  induction digits generalizing start with
  | nil => simp [value]
  | cons digit digits ih =>
      have whole : value (digit :: digits) = (0 * 10 + (digit.toNat - 48)) * 10 ^ digits.length
        + value digits := ih _
      rw [List.foldl_cons, ih, whole, List.length_cons, Nat.pow_succ]
      grind

theorem value_append (front back : List Char) :
    value (front ++ back) = value front * 10 ^ back.length + value back := by
  rw [value, List.foldl_append, foldl_digits]
  rfl

theorem value_lt {digits : List Char} (decimal : ∀ digit ∈ digits, isDigit digit = true) :
    value digits < 10 ^ digits.length := by
  induction digits with
  | nil => decide
  | cons digit digits ih =>
      have head := range_of_isDigit (decimal digit List.mem_cons_self)
      have tail := ih fun other member => decimal other (List.mem_cons_of_mem _ member)
      have whole := value_append [digit] digits
      have first : value [digit] = digit.toNat - 48 := by simp [value]
      rw [List.singleton_append, first] at whole
      rw [whole, List.length_cons, Nat.pow_succ]
      have bound : (digit.toNat - 48) * 10 ^ digits.length ≤ 9 * 10 ^ digits.length :=
        Nat.mul_le_mul_right _ (by omega)
      omega

theorem value_zeros (count : Nat) : value (List.replicate count '0') = 0 := by
  induction count with
  | zero => rfl
  | succ count ih =>
      rw [List.replicate_succ, ← List.singleton_append, value_append, ih]
      simp [value]

theorem length_pad {width number : Nat} (some : 0 < width) (fits : number < 10 ^ width) :
    (pad width number).toList.length = width := by
  have short := (Nat.length_toDigits_le_iff (by decide) some).mpr fits
  simp only [pad, String.toList_ofList, List.length_append, List.length_replicate]
  omega

theorem isDigit_of_mem_pad {width number : Nat} {digit : Char}
    (member : digit ∈ (pad width number).toList) : isDigit digit = true := by
  simp only [pad, String.toList_ofList, List.mem_append, List.mem_replicate] at member
  rcases member with ⟨-, rfl⟩ | member
  · rfl
  · exact isDigit_of_mem_toDigits member

theorem value_pad (width number : Nat) : value (pad width number).toList = number := by
  rw [pad, String.toList_ofList, value_append, value_zeros, value_toDigits, Nat.zero_mul, Nat.zero_add]

theorem take?_pad {width number : Nat} (some : 0 < width) (fits : number < 10 ^ width)
    (rest : List Char) : take? width ((pad width number).toList ++ rest) = .some (number, rest) := by
  have length := length_pad some fits
  have digits : (pad width number).toList.all isDigit = true :=
    List.all_eq_true.mpr fun _ => isDigit_of_mem_pad
  simp only [take?, List.take_left' length, List.drop_left' length, length, digits, value_pad,
    and_self, if_true]

end CrawlBoard.Digits
