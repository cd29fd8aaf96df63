import CrawlBoard.Proofs.Json.Reading

namespace CrawlBoard.Json

open Utf8 (Bytes)

/-! Numbers. -/

section Numbers

variable {bytes rest : Bytes}

theorem skipNumber_exponent {sign digits : Bytes} (isSign : sign = [] ∨ sign = [0x2B] ∨ sign = [0x2D])
    (decimals : Decimals digits) (ends : EndsNumber rest) :
    skipNumber.exponent (sign ++ (digits ++ rest)) = .ok rest := by
  obtain ⟨given, all⟩ := decimals
  obtain ⟨first, others, rfl⟩ := List.exists_cons_of_ne_nil given
  have digit : isDigit first = true := all first List.mem_cons_self
  have behind := (takeWhile_digits (fun byte member => all byte (List.mem_cons_of_mem _ member))
    ends.noDigit).2
  have noSign : ¬ (first = 0x2B ∨ first = 0x2D) := by
    rintro (rfl | rfl) <;> cases digit
  rcases isSign with rfl | rfl | rfl <;>
    simp [skipNumber.exponent, noSign, digit, behind]

theorem Exponent.noDigit (exponent : Exponent bytes) (ends : EndsNumber rest) :
    NoDigit (bytes ++ rest) := by
  cases exponent with
  | none => exact ends.noDigit
  | power isMark =>
      intro byte found
      cases found
      rcases isMark with rfl | rfl <;> decide

theorem Fraction.noDigit (fraction : Fraction bytes) (others : NoDigit rest) :
    NoDigit (bytes ++ rest) := by
  cases fraction with
  | none => exact others
  | point =>
      intro byte found
      cases found
      decide

theorem skipNumber_fraction {digits exponent : Bytes} (decimals : Decimals digits)
    (isExponent : Exponent exponent) (ends : EndsNumber rest) :
    skipNumber.fraction (digits ++ (exponent ++ rest)) = .ok rest := by
  obtain ⟨given, all⟩ := decimals
  obtain ⟨taken, left⟩ := takeWhile_digits all (isExponent.noDigit ends)
  unfold skipNumber.fraction
  rw [taken, left, if_neg given]
  cases isExponent with
  | none =>
      cases rest with
      | nil => rfl
      | cons byte rest =>
          obtain ⟨-, -, notE, notCapital⟩ := ends byte rfl
          simp [notE, notCapital]
  | power isMark isSign decimals =>
      rw [List.cons_append, List.append_assoc]
      simp only [isMark, if_true]
      exact skipNumber_exponent isSign decimals ends

theorem Unsigned.skipNumber (unsigned : Unsigned bytes) (ends : EndsNumber rest) :
    Json.skipNumber (bytes ++ rest) = .ok rest := by
  obtain ⟨isWhole, isFraction, isExponent⟩ := unsigned
  rename_i whole fraction exponent
  obtain ⟨⟨given, all⟩, alone⟩ := isWhole
  obtain ⟨taken, left⟩ :=
    takeWhile_digits all (isFraction.noDigit (isExponent.noDigit ends))
  obtain ⟨first, others, rfl⟩ := List.exists_cons_of_ne_nil given
  have plain : ¬ (first = 0x30 ∧ others ≠ []) := by
    rintro ⟨rfl, more⟩
    exact more (List.cons.inj (alone rfl)).2
  unfold Json.skipNumber
  rw [List.append_assoc, List.append_assoc, taken, left]
  simp only [if_neg plain]
  cases isFraction with
  | point decimals =>
      rw [List.cons_append]
      simp only [if_true]
      exact skipNumber_fraction decimals isExponent ends
  | none =>
      rw [List.nil_append]
      cases isExponent with
      | none =>
          cases rest with
          | nil => rfl
          | cons byte rest =>
              obtain ⟨-, notPoint, notE, notCapital⟩ := ends byte rfl
              simp [notPoint, notE, notCapital]
      | @power mark _ _ isMark isSign decimals =>
          have notPoint : mark ≠ 0x2E := by
            rcases isMark with rfl | rfl <;> decide
          rw [List.cons_append, List.append_assoc]
          simp only [notPoint, if_false, isMark, if_true]
          exact skipNumber_exponent isSign decimals ends

theorem Unsigned.head (unsigned : Unsigned bytes) :
    ∃ first tail, bytes = first :: tail ∧ isDigit first = true := by
  obtain ⟨⟨⟨given, all⟩, -⟩, -, -⟩ := unsigned
  obtain ⟨first, others, rfl⟩ := List.exists_cons_of_ne_nil given
  exact ⟨first, _, rfl, all first List.mem_cons_self⟩

end Numbers

/-! Single tokens. -/

section Tokens

variable {bytes lead rest : Bytes}

theorem skipToken_lead (leads : Blanks lead) (rest : Bytes) :
    skipToken (lead ++ rest) = skipToken rest := by
  rw [skipToken, skipBlanks_lead leads, skipToken]

theorem skipToken_digit {first : UInt8} (digit : isDigit first = true) (tail : Bytes) :
    skipToken (first :: tail) = (skipNumber (first :: tail)).map (none, ·) := by
  unfold skipToken
  rw [skipBlanks_cons (isBlank_of_isDigit digit).1]
  split
  case h_9 =>
    rename_i same
    cases same
    rw [if_pos digit]
  all_goals
    rename_i same
    cases same
  all_goals cases digit

theorem Numeral.skipToken (numeral : Numeral bytes) (ends : EndsValue rest) :
    Json.skipToken (bytes ++ rest) = .ok (none, rest) := by
  cases numeral with
  | plus unsigned =>
      obtain ⟨first, tail, rfl, digit⟩ := unsigned.head
      have passed := unsigned.skipNumber ends.endsNumber
      rw [List.cons_append] at passed ⊢
      rw [skipToken_digit digit, passed]
      rfl
  | minus unsigned =>
      exact congrArg (Except.map (none, ·)) (unsigned.skipNumber ends.endsNumber)

end Tokens

/-! Nesting. -/

def goOn (fuel : Nat) (result : List Bracket × Bytes) : Except Failure Bytes :=
  match result.1 with
  | [] => .ok result.2
  | .list :: _ => skipWithin fuel result.1 result.2
  | .object :: _ => do
      let rest ← skipName result.2
      skipWithin fuel result.1 rest

def afterValue (fuel : Nat) (stack : List Bracket) (rest : Bytes) : Except Failure Bytes :=
  skipClosers true stack rest >>= goOn fuel

/-- The bytes are passed over inside any open brackets, in no more steps than there are bytes. -/
def Skips (bytes : Bytes) : Prop :=
  ∃ steps ≤ bytes.length, ∀ fuel stack lead rest, Blanks lead → EndsValue rest →
    skipWithin (fuel + steps) stack (lead ++ (bytes ++ rest)) = afterValue fuel stack rest

def SkipsInside (bracket : Bracket) (first : Bool) (inside : Bytes) : Prop :=
  ∃ steps ≤ inside.length, ∀ fuel stack rest,
    (skipClosers (!first) (bracket :: stack) (inside ++ bracket.close :: rest)
      >>= goOn (fuel + steps)) = afterValue fuel stack rest

section Nesting

variable {first : Bool} {bytes gap part inside trail : Bytes} {bracket : Bracket}

theorem skips_of_token (given : bytes ≠ [])
    (token : ∀ rest, EndsValue rest → skipToken (bytes ++ rest) = .ok (none, rest)) :
    Skips bytes := by
  refine ⟨1, List.length_pos_iff.mpr given, fun fuel stack lead rest leads ends => ?_⟩
  rw [skipWithin, skipToken_lead leads, token rest ends]
  rfl

theorem skips_of_bracket {opening : UInt8}
    (token : ∀ rest, skipToken (opening :: rest) = .ok (some bracket, rest))
    (skips : SkipsInside bracket true inside) :
    Skips (opening :: (inside ++ [bracket.close])) := by
  obtain ⟨steps, few, skips⟩ := skips
  refine ⟨steps + 1, ?_, fun fuel stack lead rest leads _ => ?_⟩
  · simp only [List.length_cons, List.length_append]
    omega
  · have read := skips fuel stack rest
    rw [List.cons_append, List.append_assoc, ← Nat.add_assoc, skipWithin, skipToken_lead leads,
      token]
    exact read

theorem skipClosers_end (behind : Bool) (bracket : Bracket) (stack : List Bracket)
    (trails : Blanks trail) (rest : Bytes) :
    skipClosers behind (bracket :: stack) (trail ++ bracket.close :: rest) =
      skipClosers true stack rest := by
  rw [skipClosers, skipBlanks_lead trails]
  cases behind <;> cases bracket <;> rfl

theorem Gap.skipClosers (before : Gap first gap) (bracket : Bracket) (stack : List Bracket)
    (begins : Begins bracket.close part) (rest : Bytes) : ∃ lead, Blanks lead ∧
      Json.skipClosers (!first) (bracket :: stack) (gap ++ (part ++ rest)) =
        .ok (bracket :: stack, lead ++ (part ++ rest)) := by
  obtain ⟨byte, tail, rfl, notBlank, notEnd⟩ := begins
  cases before with
  | first leads =>
      refine ⟨[], .nil, ?_⟩
      rw [Json.skipClosers, skipBlanks_lead leads, List.cons_append, skipBlanks_cons notBlank]
      simp [notEnd]
  | @comma trail lead trails leads =>
      refine ⟨lead, leads, ?_⟩
      rw [Json.skipClosers, List.append_assoc, skipBlanks_lead trails, List.cons_append,
        skipBlanks_cons rfl]
      simp

namespace SkipsInside

theorem cons (before : Gap first gap) {more : Bytes} (others : SkipsInside bracket false more)
    (begins : Begins bracket.close part)
    (skips : ∃ steps ≤ part.length, ∀ fuel stack lead rest, Blanks lead → EndsValue rest →
      goOn (fuel + steps) (bracket :: stack, lead ++ (part ++ rest)) =
        afterValue fuel (bracket :: stack) rest)
    (ends : ∀ rest, EndsValue (more ++ bracket.close :: rest)) :
    SkipsInside bracket first (gap ++ (part ++ more)) := by
  obtain ⟨steps, few, skips⟩ := skips
  obtain ⟨later, fewLater, others⟩ := others
  refine ⟨later + steps, ?_, fun fuel stack rest => ?_⟩
  · simp only [List.length_append]
    omega
  · obtain ⟨lead, leads, closed⟩ := before.skipClosers bracket stack begins
      (more ++ bracket.close :: rest)
    rw [List.append_assoc, List.append_assoc, closed, ← Nat.add_assoc]
    exact (skips _ _ lead _ leads (ends rest)).trans (others fuel stack rest)

theorem nil (trails : Blanks trail) : SkipsInside bracket first trail :=
  ⟨0, Nat.zero_le _, fun fuel stack rest =>
    congrArg (· >>= goOn fuel) (skipClosers_end _ bracket stack trails rest)⟩

theorem list {parts : List Bytes} (separated : Separated first parts inside)
    (begins : ∀ part ∈ parts, Begins 0x5D part) (skips : ∀ part ∈ parts, Skips part) :
    SkipsInside .list first inside := by
  induction separated with
  | done trails => exact .nil trails
  | part before others ih =>
      have more := ih (fun part member => begins part (List.mem_cons_of_mem _ member))
        fun part member => skips part (List.mem_cons_of_mem _ member)
      obtain ⟨steps, few, skips⟩ := skips _ List.mem_cons_self
      exact .cons before more (begins _ List.mem_cons_self)
        ⟨steps, few, fun fuel stack => skips fuel (.list :: stack)⟩ (others.endsValue (.inl rfl))

end SkipsInside

theorem Skips.passes (skips : Skips bytes) : Passes bytes := by
  intro lead rest leads ends
  obtain ⟨steps, few, skips⟩ := skips
  obtain ⟨more, enough⟩ : ∃ more, (lead ++ (bytes ++ rest)).length + 1 = more + steps := by
    refine ⟨(lead ++ (bytes ++ rest)).length + 1 - steps, ?_⟩
    simp only [List.length_append]
    omega
  rw [skipValue, enough, skips more [] lead rest leads ends]
  rfl

end Nesting

end CrawlBoard.Json
