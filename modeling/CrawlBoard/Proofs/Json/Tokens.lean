import CrawlBoard.Proofs.Json.Layout

namespace CrawlBoard

open Utf8 (Bytes)

namespace Json

def isTokenByte (byte : UInt8) : Bool :=
  isDigit byte || (0x61 ≤ byte && byte ≤ 0x7A) || byte == 0x2B || byte == 0x2D || byte == 0x2E

def IsTokenChar (char : Char) : Prop :=
  char.toNat < 128 ∧ isTokenByte (UInt8.ofNat char.toNat) = true

instance (char : Char) : Decidable (IsTokenChar char) := inferInstanceAs (Decidable (_ ∧ _))

theorem isTokenChar_of_isDigit {digit : Char} (decimal : Digits.isDigit digit = true) :
    IsTokenChar digit := by
  have range := Digits.range_of_isDigit decimal
  refine Utf8.of_ascii (fun digit => 48 ≤ digit.toNat ∧ digit.toNat ≤ 57 → IsTokenChar digit)
    (by omega) ?_ range
  decide

theorem isTokenByte_of_chars {text : String} (chars : ∀ char ∈ text.toList, IsTokenChar char) :
    ∀ byte ∈ Utf8.encode text, isTokenByte byte = true := by
  intro byte member
  rw [Utf8.encode_eq_flatMap,
    Utf8.flatMap_encodeChar_of_ascii fun char present => (chars char present).1] at member
  obtain ⟨char, present, rfl⟩ := List.mem_map.mp member
  exact (chars char present).2

end Json

namespace Real

open Json (IsTokenChar)

theorem significant_chars (decimal : Decimal) :
    ∀ char ∈ decimal.significant.1, IsTokenChar char := by
  intro char member
  have kept := (List.dropWhile_sublist _).subset (List.mem_reverse.mp member)
  exact Json.isTokenChar_of_isDigit (Digits.isDigit_of_mem_toDigits (List.mem_reverse.mp kept))

theorem zeros_chars (count : Nat) : ∀ char ∈ zeros count, IsTokenChar char := by
  intro char member
  rw [List.eq_of_mem_replicate member]
  decide

theorem layout_chars {digits : List Char} (all : ∀ char ∈ digits, IsTokenChar char)
    (exponent : Int) : ∀ char ∈ layout digits exponent, IsTokenChar char := by
  have point : IsTokenChar '.' := by decide
  have zero : IsTokenChar '0' := by decide
  have mark : IsTokenChar 'e' := by decide
  have front (count : Nat) : ∀ char ∈ digits.take count, IsTokenChar char :=
    fun char member => all char (List.mem_of_mem_take member)
  have back (count : Nat) : ∀ char ∈ digits.drop count, IsTokenChar char :=
    fun char member => all char (List.mem_of_mem_drop member)
  have power (number : Nat) : ∀ char ∈ Nat.toDigits 10 number, IsTokenChar char :=
    fun char member => Json.isTokenChar_of_isDigit (Digits.isDigit_of_mem_toDigits member)
  have sign (negative : Prop) [Decidable negative] :
      IsTokenChar (if negative then '-' else '+') := by
    split <;> decide
  have tail : ∀ char ∈ if digits.length = 1 then [] else '.' :: digits.drop 1,
      IsTokenChar char := by
    split
    · exact fun _ member => nomatch member
    · exact List.forall_mem_cons.mpr ⟨point, back 1⟩
  simp only [layout]
  -- As the layout does: the point behind the digits, among them, before them, or a power.
  by_cases whole : 0 ≤ exponent ∧ (digits.length + exponent : Int) ≤ 16
  · rw [if_pos whole]
    simp only [List.forall_mem_append, List.forall_mem_cons]
    exact ⟨⟨all, zeros_chars _⟩, point, zero, fun _ member => nomatch member⟩
  rw [if_neg whole]
  by_cases inside : 0 < (digits.length + exponent : Int) ∧ (digits.length + exponent : Int) ≤ 16
  · rw [if_pos inside]
    simp only [List.forall_mem_append, List.forall_mem_cons]
    exact ⟨front _, point, back _⟩
  rw [if_neg inside]
  by_cases small : -5 < (digits.length + exponent : Int) ∧ (digits.length + exponent : Int) ≤ 0
  · rw [if_pos small]
    simp only [List.forall_mem_append, List.forall_mem_cons]
    exact ⟨zero, point, zeros_chars _, all⟩
  · rw [if_neg small]
    simp only [List.forall_mem_append, List.forall_mem_cons]
    exact ⟨⟨front 1, tail⟩, mark, sign _, power _⟩

theorem layout_ne_nil (digits : List Char) (exponent : Int) : layout digits exponent ≠ [] := by
  simp only [layout]
  split
  · simp
  · split
    · simp
    · split <;> simp

theorem shortestText_chars (x : Float) : ∀ char ∈ (shortestText x).toList, IsTokenChar char := by
  have minus : IsTokenChar '-' := by decide
  simp only [shortestText, String.toList_ofList]
  split
  · refine List.forall_mem_cons.mpr ⟨minus, ?_⟩
    split
    · decide
    · exact layout_chars (significant_chars _) _
  · split
    · decide
    · exact layout_chars (significant_chars _) _

theorem shortestText_ne_empty (x : Float) : shortestText x ≠ "" := by
  simp only [shortestText]
  intro empty
  have chars := congrArg String.toList empty
  rw [String.toList_ofList] at chars
  revert chars
  split
  · exact List.cons_ne_nil _ _
  · split
    · exact List.cons_ne_nil _ _
    · exact layout_ne_nil _ _

end Real

namespace Json

theorem Tree.isTokenByte_of_mem {tree : Tree} (isToken : tree.isToken = true) :
    ∀ byte ∈ tree.bytes, isTokenByte byte = true := by
  refine isTokenByte_of_chars ?_
  cases tree with
  | null => decide
  | bool value => cases value <;> decide
  | natural number =>
      have digits : (toString number).toList = Nat.toDigits 10 number := Nat.toList_repr
      intro char member
      rw [compact, digits] at member
      exact isTokenChar_of_isDigit (Digits.isDigit_of_mem_toDigits member)
  | real x =>
      rw [compact, realText]
      split
      · exact Real.shortestText_chars x
      · decide
  | text | list | object => cases isToken

theorem Tree.bytes_ne_nil {tree : Tree} (isToken : tree.isToken = true) : tree.bytes ≠ [] := by
  have given {text : String} (more : text ≠ "") : Utf8.encode text ≠ [] := by
    intro empty
    have back := Utf8.decode?_encode text
    rw [empty] at back
    exact more (Option.some.inj back).symm
  cases tree with
  | null => exact given (by decide)
  | bool value => cases value <;> exact given (by decide)
  | natural number =>
      rw [bytes_natural]
      exact digitBytes_ne_nil number
  | real x =>
      refine given ?_
      rw [compact, realText]
      split
      · exact Real.shortestText_ne_empty x
      · decide
  | text | list | object => cases isToken

theorem takeWhile_token {tree : Tree} (isToken : tree.isToken = true) {rest : Bytes}
    (ends : EndsValue rest) : (tree.bytes ++ rest).takeWhile isTokenByte = tree.bytes := by
  rw [List.takeWhile_append_of_pos (Tree.isTokenByte_of_mem isToken)]
  cases rest with
  | nil => exact List.append_nil _
  | cons byte rest =>
      have other : ¬ isTokenByte byte = true := by
        rcases ends byte rfl with blank | rfl | rfl | rfl
        · simp only [isBlank, Bool.or_eq_true, beq_iff_eq] at blank
          rcases blank with ((rfl | rfl) | rfl) | rfl <;> decide
        · decide
        · decide
        · decide
      rw [List.takeWhile_cons_of_neg other, List.append_nil]

end Json

end CrawlBoard
