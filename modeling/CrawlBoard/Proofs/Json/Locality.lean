import CrawlBoard.Proofs.Json.WellFormed
/-!
Texts and numbers are read locally: what has been read of one once is read of it whatever stands
behind it.
-/

namespace CrawlBoard.Json

open Utf8 (Bytes)

section Results

variable {α β : Type}

theorem map_ok {read : Except Failure α} {f : α → β} {b : β} (shown : read.map f = .ok b) :
    ∃ a, read = .ok a ∧ f a = b := by
  cases read with
  | error => cases shown
  | ok a => exact ⟨a, rfl, Except.ok.inj shown⟩

theorem bind_ok {read : Except Failure α} {next : α → Except Failure β} {b : β}
    (shown : read >>= next = .ok b) : ∃ a, read = .ok a ∧ next a = .ok b := by
  cases read with
  | error => cases shown
  | ok a => exact ⟨a, rfl, shown⟩

end Results

section Texts

variable {bytes given after rest : Bytes}

/-- The bytes stand for the given ones, whatever comes behind them. -/
def Yields (bytes given : Bytes) : Prop :=
  ∀ rest, content (bytes ++ rest) = (content rest).map (prepend given)

theorem yields_of_escape {written : Bytes}
    (read : ∀ rest, escape (written ++ rest) = .ok (given, written.length)) :
    Yields (0x5C :: written) given :=
  fun rest => content_escape written given rest (read rest)

theorem HexUnit.drop {unit : Nat} {digits : Bytes} (hex : HexUnit unit digits) (rest : Bytes) :
    (digits ++ rest).drop 4 = rest := by
  rw [← hex.length, List.drop_left]

theorem HexUnit.yields {unit : Nat} {digits : Bytes} (hex : HexUnit unit digits)
    (notHigh : isHighSurrogate unit = false) (notLow : isLowSurrogate unit = false) :
    Yields (0x5C :: 0x75 :: digits) (scalarBytes unit) := by
  refine yields_of_escape fun rest => ?_
  rw [List.length_cons, hex.length, List.cons_append]
  simp only [Json.escape, unicodeEscape, hex.hexUnit, bind, Except.bind, notHigh, notLow]
  rfl

theorem HexUnit.yields_pair {unit second : Nat} {digits low : Bytes} (hex : HexUnit unit digits)
    (lowUnit : HexUnit second low) (isHigh : isHighSurrogate unit = true)
    (notLow : isLowSurrogate unit = false) (isLow : isLowSurrogate second = true) :
    Yields (0x5C :: 0x75 :: (digits ++ 0x5C :: 0x75 :: low))
      (scalarBytes ((unit - 0xD800) * 0x400 + (second - 0xDC00) + 0x10000)) := by
  refine yields_of_escape fun rest => ?_
  have behind := hex.drop (0x5C :: 0x75 :: (low ++ rest))
  have length : (0x75 :: (digits ++ 0x5C :: 0x75 :: low)).length = 11 := by
    simp [hex.length, lowUnit.length]
  rw [length, List.cons_append, List.append_assoc, List.cons_append, List.cons_append]
  simp only [Json.escape, unicodeEscape, hex.hexUnit, lowUnit.hexUnit, behind, bind, Except.bind, notLow,
    isHigh, isLow]
  rfl

theorem escape_of_content {written : Bytes} (shown : content (0x5C :: written) = .ok (given, after)) :
    ∃ read, escape written = .ok read := by
  rw [content, if_neg (by decide), if_pos rfl] at shown
  cases read : escape written with
  | error failure => simp only [read] at shown; cases shown
  | ok result => exact ⟨result, rfl⟩

theorem HexUnit.pair_of_escape {unit : Nat} {digits : Bytes} (hex : HexUnit unit digits)
    (spelled : Spelled bytes) {read : Bytes × Nat}
    (shown : Json.escape (0x75 :: (digits ++ (bytes ++ 0x22 :: rest))) = .ok read) :
    isLowSurrogate unit = false ∧ (isHighSurrogate unit = true →
      ∃ second low behind, HexUnit second low ∧ isLowSurrogate second = true ∧
        bytes = 0x5C :: 0x75 :: (low ++ behind) ∧ Spelled behind) := by
  have last := hex.drop (bytes ++ 0x22 :: rest)
  simp only [Json.escape, unicodeEscape, hex.hexUnit, bind, Except.bind, last] at shown
  cases notLow : isLowSurrogate unit with
  | true =>
      rw [notLow] at shown
      cases shown
  | false =>
      refine ⟨rfl, fun isHigh => ?_⟩
      simp only [notLow, isHigh, Bool.false_eq_true, if_false, Bool.not_true] at shown
      cases spelled with
      | nil => cases shown
      | @plain byte behind plain =>
          have other : byte ≠ 0x5C := by
            rintro rfl
            cases plain
          simp [other, fail, Except.map] at shown
      | @letter letter char behind known =>
          have other : letter ≠ 0x75 := by
            rintro rfl
            revert known
            simp [letters]
          simp [fail, Except.map] at shown
      | @unit second low behind lowUnit spelledBehind =>
          simp only [List.cons_append, List.append_assoc, lowUnit.hexUnit] at shown
          cases isLow : isLowSurrogate second with
          | false =>
              rw [isLow] at shown
              cases shown
          | true => exact ⟨second, low, behind, lowUnit, isLow, rfl, spelledBehind⟩

theorem Spelled.front (spelled : Spelled bytes) (some : bytes ≠ [])
    (shown : content (bytes ++ 0x22 :: rest) = .ok (given, after)) :
    ∃ front behind part, bytes = front ++ behind ∧ behind.length < bytes.length ∧
      Spelled behind ∧ Yields front part := by
  -- Only half of a surrogate pair cannot be read by itself.
  cases spelled with
  | nil => exact absurd rfl some
  | @plain byte behind plain spelled =>
      exact ⟨[byte], behind, [byte], rfl, by simp, spelled,
        content_plain [byte] (by simpa using plain)⟩
  | @letter letter char behind known spelled =>
      refine ⟨[0x5C, letter], behind, String.utf8EncodeChar char, rfl, ?_, spelled,
        yields_of_escape fun rest => (escape_letter known rest).1⟩
      simp only [List.length_cons]
      omega
  | @unit unit digits behind hex spelled =>
      rw [List.cons_append, List.cons_append, List.append_assoc] at shown
      obtain ⟨read, escaped⟩ := escape_of_content shown
      obtain ⟨notLow, pair⟩ := hex.pair_of_escape spelled escaped
      cases isHigh : isHighSurrogate unit with
      | false =>
          refine ⟨0x5C :: 0x75 :: digits, behind, _, rfl, ?_, spelled, hex.yields isHigh notLow⟩
          simp only [List.length_cons, List.length_append]
          omega
      | true =>
          obtain ⟨second, low, behind, lowUnit, isLow, rfl, last⟩ := pair isHigh
          refine ⟨0x5C :: 0x75 :: (digits ++ 0x5C :: 0x75 :: low), behind, _, by simp, ?_, last,
            hex.yields_pair lowUnit isHigh notLow isLow⟩
          simp only [List.length_cons, List.length_append]
          omega

/-- The induction is on the length, as the two halves of a pair are read at once. -/
theorem Spelled.content (spelled : Spelled bytes)
    (shown : Json.content (bytes ++ 0x22 :: rest) = .ok (given, after)) (others : Bytes) :
    Json.content (bytes ++ 0x22 :: others) = .ok (given, others) := by
  induction length : bytes.length using Nat.strongRecOn generalizing bytes given with
  | ind count ih =>
    by_cases empty : bytes = []
    · subst empty
      rw [List.nil_append, Json.content, if_pos rfl] at shown ⊢
      cases shown
      rfl
    · obtain ⟨front, behind, part, rfl, shorter, last, yields⟩ := spelled.front empty shown
      rw [List.append_assoc, yields] at shown ⊢
      obtain ⟨⟨more, left⟩, read, same⟩ := map_ok shown
      cases same
      rw [ih behind.length (length ▸ shorter) last read rfl]
      rfl

theorem Spelled.readText (spelled : Spelled bytes) {text : String}
    (shown : Json.readText (bytes ++ 0x22 :: rest) = .ok (text, after)) (others : Bytes) :
    Json.readText (bytes ++ 0x22 :: others) = .ok (text, others) := by
  obtain ⟨⟨given, left⟩, read, decoded⟩ := bind_ok shown
  simp only [Json.readText, spelled.content read others, bind, Except.bind]
  cases decodes : Utf8.decode? given with
  | none => simp only [decodes] at decoded; cases decoded
  | some found =>
      simp only [decodes] at decoded ⊢
      cases decoded
      rfl

end Texts

section Numbers

variable {rest after : Bytes} {number : Number}

/-- A number that has been read behind the bytes is read behind them whatever ends it. -/
def Decides (read : Bytes → Except Failure (Number × Bytes)) (bytes : Bytes) : Prop :=
  ∀ ⦃rest⦄, EndsNumber rest → ∀ ⦃number after⦄, read (bytes ++ rest) = .ok (number, after) →
    ∀ ⦃others⦄, EndsNumber others → read (bytes ++ others) = .ok (number, others)

theorem exponentDigits_append (value : Nat) {digits : Bytes}
    (all : ∀ byte ∈ digits, isDigit byte = true) :
    (∃ exponent, ∀ rest, NoDigit rest →
      exponentDigits value (digits ++ rest) = (some exponent, rest)) ∨
    ∃ left, (∀ byte ∈ left, isDigit byte = true) ∧
      ∀ rest, exponentDigits value (digits ++ rest) = (none, left ++ rest) := by
  induction digits generalizing value with
  | nil =>
      refine .inl ⟨value, fun rest stops => ?_⟩
      cases rest with
      | nil => rfl
      | cons byte rest => rw [List.nil_append, exponentDigits, if_neg (by simp [stops byte rfl])]
  | cons digit digits ih =>
      obtain ⟨isDigit, others⟩ := List.forall_mem_cons.mp all
      by_cases large : value * 10 + (digit.toNat - 48) > maxExponent
      · refine .inr ⟨digits, others, fun rest => ?_⟩
        rw [List.cons_append, exponentDigits, if_pos isDigit]
        simp only [if_pos large]
      · refine (ih (value * 10 + (digit.toNat - 48)) others).imp ?_ ?_
        · rintro ⟨exponent, read⟩
          refine ⟨exponent, fun rest stops => ?_⟩
          rw [List.cons_append, exponentDigits, if_pos isDigit]
          simp only [if_neg large, read rest stops]
        · rintro ⟨left, more, read⟩
          refine ⟨left, more, fun rest => ?_⟩
          rw [List.cons_append, exponentDigits, if_pos isDigit]
          simp only [if_neg large, read rest]

theorem decides_unsignedExponent (negative : Bool) (significand : Nat) (exponent : Int) (down : Bool)
    {digits : Bytes} (decimals : Decimals digits) :
    Decides (readUnsignedExponent negative significand exponent down) digits := by
  obtain ⟨given, all⟩ := decimals
  obtain ⟨first, digits, rfl⟩ := List.exists_cons_of_ne_nil given
  have ⟨digit, more⟩ := List.forall_mem_cons.mp all
  intro rest ends number after shown others otherEnds
  rw [List.cons_append, readUnsignedExponent] at shown ⊢
  simp only [digit, Bool.not_true, Bool.false_eq_true, if_false] at shown ⊢
  obtain ⟨value, read⟩ | ⟨left, leftDigits, read⟩ := exponentDigits_append (first.toNat - 48) more
  · simp only [read _ ends.noDigit, read _ otherEnds.noDigit] at shown ⊢
    exact finishReal_append shown others
  · simp only [read] at shown ⊢
    split at shown
    · cases shown
    · rename_i inRange
      cases shown
      rw [if_neg inRange, (takeWhile_digits leftDigits otherEnds.noDigit).2]

theorem decides_exponent (negative : Bool) (significand : Nat) (exponent : Int)
    {sign digits : Bytes} (isSign : sign = [] ∨ sign = [0x2B] ∨ sign = [0x2D])
    (decimals : Decimals digits) :
    Decides (readExponent negative significand exponent) (sign ++ digits) := by
  have decides (down : Bool) := decides_unsignedExponent negative significand exponent down decimals
  have plain (rest : Bytes) : exponentSign (digits ++ rest) = (false, digits ++ rest) := by
    obtain ⟨given, all⟩ := decimals
    obtain ⟨first, digits, rfl⟩ := List.exists_cons_of_ne_nil given
    have digit := all first List.mem_cons_self
    have notPlus : first ≠ 0x2B := by
      rintro rfl
      cases digit
    have notMinus : first ≠ 0x2D := by
      rintro rfl
      cases digit
    simp [exponentSign, notPlus, notMinus]
  intro rest ends number after shown others otherEnds
  rw [readExponent_eq] at shown ⊢
  rcases isSign with rfl | rfl | rfl
  · rw [List.nil_append, plain] at shown ⊢
    exact decides false ends shown otherEnds
  · exact decides false ends shown otherEnds
  · exact decides true ends shown otherEnds

theorem readScaled_ends (ends : EndsNumber rest) (negative : Bool) (significand : Nat)
    (exponent : Int) : readScaled negative significand exponent rest =
      finishReal negative significand exponent rest := by
  cases rest with
  | nil => rfl
  | cons byte rest =>
      have ⟨_, _, lower, upper⟩ := ends byte rfl
      rw [readScaled, if_neg (by simp [lower, upper])]

theorem Exponent.decides {bytes : Bytes} (power : Exponent bytes) (negative : Bool)
    (significand : Nat) (exponent : Int) :
    Decides (readScaled negative significand exponent) bytes := by
  intro rest ends number after shown others otherEnds
  cases power with
  | none =>
      rw [List.nil_append, readScaled_ends ends] at shown
      rw [List.nil_append, readScaled_ends otherEnds]
      exact finishReal_append shown others
  | power isMark isSign decimals =>
      rw [List.cons_append, readScaled, if_pos isMark] at shown ⊢
      exact decides_exponent _ _ _ isSign decimals ends shown otherEnds

theorem decides_fraction {digits bytes : Bytes} (decimals : Decimals digits)
    (power : Exponent bytes) (negative : Bool) (significand : Nat) (exponent : Int) :
    Decides (readFraction negative significand exponent) (digits ++ bytes) := by
  obtain ⟨given, all⟩ := decimals
  intro rest ends number after shown others otherEnds
  have here := takeWhile_digits all (power.noDigit ends)
  have there := takeWhile_digits all (power.noDigit otherEnds)
  rw [List.append_assoc, readFraction_eq, here.1, here.2, if_neg given] at shown
  rw [List.append_assoc, readFraction_eq, there.1, there.2, if_neg given]
  exact power.decides _ _ _ ends shown otherEnds

def readBehindWhole (negative : Bool) (significand omitted : Nat) (after : Bytes) :
    Except Failure (Number × Bytes) :=
  match after with
  | byte :: tail =>
      if byte = 0x2E then readFraction negative significand omitted tail
      else if byte = 0x65 ∨ byte = 0x45 then readExponent negative significand omitted tail
      else readNumber.whole negative significand omitted after
  | [] => readNumber.whole negative significand omitted after

theorem Whole.readNumber {digits : Bytes} (whole : Whole digits) (stops : NoDigit rest)
    (negative : Bool) : Json.readNumber negative (digits ++ rest) =
      readBehindWhole negative (absorb 0 digits).1 (absorb 0 digits).2 rest := by
  obtain ⟨⟨given, all⟩, alone⟩ := whole
  have ⟨taken, left⟩ := takeWhile_digits all stops
  rw [Json.readNumber, taken, left]
  cases digits with
  | nil => exact absurd rfl given
  | cons first digits =>
      have plain : ¬ (first = 0x30 ∧ digits ≠ []) := by
        rintro ⟨rfl, more⟩
        exact more (List.cons.inj (alone rfl)).2
      simp only [if_neg plain]
      rfl

theorem readBehindWhole_ends (ends : EndsNumber rest) (negative : Bool) (significand omitted : Nat) :
    readBehindWhole negative significand omitted rest =
      readNumber.whole negative significand omitted rest := by
  cases rest with
  | nil => rfl
  | cons byte rest =>
      have ⟨_, point, lower, upper⟩ := ends byte rfl
      rw [readBehindWhole, if_neg point, if_neg (by simp [lower, upper])]

theorem decides_behindWhole {fraction exponent : Bytes} (isFraction : Fraction fraction)
    (isExponent : Exponent exponent) (negative : Bool) (significand omitted : Nat) :
    Decides (readBehindWhole negative significand omitted) (fraction ++ exponent) := by
  intro rest ends number after shown others otherEnds
  cases isFraction with
  | none =>
      cases isExponent with
      | none =>
          rw [List.append_nil, List.nil_append, readBehindWhole_ends ends] at shown
          rw [List.append_nil, List.nil_append, readBehindWhole_ends otherEnds]
          exact whole_append shown others
      | @power mark _ _ isMark isSign decimals =>
          have notPoint : mark ≠ 0x2E := by
            rintro rfl
            revert isMark
            decide
          rw [List.nil_append, List.cons_append, readBehindWhole, if_neg notPoint,
            if_pos isMark] at shown ⊢
          exact decides_exponent _ _ _ isSign decimals ends shown otherEnds
  | point decimals =>
      rw [List.cons_append, List.cons_append, readBehindWhole, if_pos rfl] at shown ⊢
      exact decides_fraction decimals isExponent _ _ _ ends shown otherEnds

theorem Unsigned.decides {bytes : Bytes} (unsigned : Unsigned bytes) (negative : Bool) :
    Decides (readNumber negative) bytes := by
  obtain ⟨whole, isFraction, isExponent⟩ := unsigned
  have stops {rest : Bytes} (ends : EndsNumber rest) :=
    isFraction.noDigit (isExponent.noDigit ends)
  intro rest ends number after shown others otherEnds
  rw [List.append_assoc, List.append_assoc, whole.readNumber (stops ends), ← List.append_assoc] at shown
  rw [List.append_assoc, List.append_assoc, whole.readNumber (stops otherEnds), ← List.append_assoc]
  exact decides_behindWhole isFraction isExponent _ _ _ ends shown otherEnds

end Numbers

end CrawlBoard.Json
