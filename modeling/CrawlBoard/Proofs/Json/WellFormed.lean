import CrawlBoard.Proofs.Json.Skip
/-!
Well-formed values. A text may name half of a surrogate pair, which nobody can read; a value that
holds one is passed over like any other.
-/

namespace CrawlBoard.Json

open Utf8 (Bytes)

/-- What may stand between quotes, whether or not it can be read. -/
inductive Spelled : Bytes → Prop
  | nil : Spelled []
  | plain {byte : UInt8} {behind : Bytes} (plain : isPlain byte = true) (others : Spelled behind) :
      Spelled (byte :: behind)
  | letter {letter : UInt8} {char : Char} {behind : Bytes} (known : (letter, char) ∈ letters)
      (others : Spelled behind) : Spelled (0x5C :: letter :: behind)
  | unit {unit : Nat} {digits behind : Bytes} (hex : HexUnit unit digits)
      (others : Spelled behind) : Spelled (0x5C :: 0x75 :: (digits ++ behind))

section Texts

variable {bytes behind : Bytes}

theorem Spelled.of_plain (plain : ∀ byte ∈ bytes, isPlain byte = true) (others : Spelled behind) :
    Spelled (bytes ++ behind) := by
  induction bytes with
  | nil => exact others
  | cons byte bytes ih =>
      have ⟨head, tail⟩ := List.forall_mem_cons.mp plain
      exact .plain head (ih tail)

theorem Written.spelled {char : Char} (written : Written char bytes) (others : Spelled behind) :
    Spelled (bytes ++ behind) := by
  cases written with
  | plain notQuote notBackslash notControl =>
      exact .of_plain (fun _ => isPlain_of_mem notQuote notBackslash notControl) others
  | letter known => exact .letter known others
  | unit hex => exact .unit hex others
  | pair highUnit lowUnit =>
      have both := Spelled.unit highUnit (.unit lowUnit others)
      simpa using both

theorem WrittenAll.spelled {chars : List Char} (written : WrittenAll chars bytes) :
    Spelled bytes := by
  induction written with
  | nil => exact .nil
  | cons first _ ih => exact first.spelled ih

theorem Spelled.skipText (spelled : Spelled bytes) (rest : Bytes) :
    Json.skipText (bytes ++ 0x22 :: rest) = .ok rest := by
  induction spelled with
  | nil => rw [List.nil_append, Json.skipText, if_pos rfl]
  | @plain byte behind plain _ ih =>
      have step := skipText_plain [byte] (by simpa using plain) (behind ++ 0x22 :: rest)
      exact step.trans ih
  | letter known _ ih =>
      rw [List.cons_append, List.cons_append, Json.skipText]
      simp only [(escape_letter known _).2]
      exact ih
  | unit hex _ ih =>
      rw [List.cons_append, List.cons_append, List.append_assoc, hex.skipText, ih]

end Texts

theorem skipName_entry {lead : Bytes} (leads : Blanks lead) {entry : Entry}
    (spelled : Spelled entry.quoted) (rest : Bytes) :
    skipName (lead ++ (0x22 :: entry.bytes ++ rest)) =
      .ok (entry.lead ++ (entry.value ++ rest)) := by
  rw [skipName, skipBlanks_lead leads, List.cons_append, skipBlanks_cons rfl, Entry.bytes]
  simp only [List.append_assoc, List.cons_append, spelled.skipText, bind, Except.bind,
    colon_trail entry.trails]

theorem SkipsInside.object {entries : List Entry} {first : Bool} {inside : Bytes}
    (separated : Separated first (entryParts entries) inside)
    (spelled : ∀ entry ∈ entries, Spelled entry.quoted)
    (skips : ∀ entry ∈ entries, Skips entry.value) : SkipsInside .object first inside := by
  induction entries generalizing first inside with
  | nil =>
      cases separated with
      | done trails => exact .nil trails
  | cons entry entries ih =>
      have ⟨named, spelled⟩ := List.forall_mem_cons.mp spelled
      have ⟨skip, skips⟩ := List.forall_mem_cons.mp skips
      cases separated with
      | part before others =>
          obtain ⟨steps, few, skip⟩ := skip
          refine .cons before (ih others spelled skips) ⟨_, _, rfl, by decide⟩ ⟨steps, ?_, ?_⟩
            (others.endsValue (.inr rfl))
          · simp only [Entry.bytes, List.length_cons, List.length_append]
            omega
          · intro fuel stack lead rest leads ends
            have name := skipName_entry leads named rest
            simp only [goOn, name, bind, Except.bind]
            exact skip fuel (.object :: stack) entry.lead rest entry.leads ends

theorem Numeral.begins {first : UInt8} {tail : Bytes} (numeral : Numeral (first :: tail)) :
    first = 0x2D ∨ isDigit first = true := by
  cases numeral with
  | minus => exact .inl rfl
  | plus unsigned =>
      obtain ⟨_, _, same, digit⟩ := unsigned.head
      cases same
      exact .inr digit

inductive WellFormed : Bytes → Prop
  | null : WellFormed [0x6E, 0x75, 0x6C, 0x6C]
  | yes : WellFormed [0x74, 0x72, 0x75, 0x65]
  | no : WellFormed [0x66, 0x61, 0x6C, 0x73, 0x65]
  | number {bytes : Bytes} (numeral : Numeral bytes) : WellFormed bytes
  | text {quoted : Bytes} (spelled : Spelled quoted) : WellFormed (0x22 :: (quoted ++ [0x22]))
  | list {parts : List Bytes} {bytes : Bytes} (values : ∀ part ∈ parts, WellFormed part)
      (listed : ListOf parts bytes) : WellFormed bytes
  | object {entries : List Entry} {inside : Bytes}
      (spelled : ∀ entry ∈ entries, Spelled entry.quoted)
      (values : ∀ entry ∈ entries, WellFormed entry.value)
      (separated : Separated true (entryParts entries) inside) :
      WellFormed (0x7B :: (inside ++ [0x7D]))

theorem WellFormed.members {members : List Member} {bytes : Bytes}
    (values : ∀ member ∈ members, WellFormed member.value) (listed : ObjectOf members bytes) :
    WellFormed bytes := by
  obtain ⟨separated⟩ := listed
  rw [← entryParts_map] at separated
  refine .object (fun entry present => ?_) (fun entry present => ?_) separated
  · obtain ⟨member, _, rfl⟩ := List.mem_map.mp present
    exact member.written.spelled
  · obtain ⟨member, found, rfl⟩ := List.mem_map.mp present
    exact values member found

theorem Value.wellFormed {bytes : Bytes} (value : Value bytes) : WellFormed bytes := by
  induction value with
  | null => exact .null
  | yes => exact .yes
  | no => exact .no
  | number numeral => exact .number numeral
  | text quoted =>
      obtain ⟨written⟩ := quoted
      exact .text written.spelled
  | list _ listed ih => exact .list ih listed
  | object _ listed ih => exact .members ih listed

namespace WellFormed

variable {bytes : Bytes}

/-- The first byte tells what kind of value it is. -/
theorem head (wellFormed : WellFormed bytes) : ∃ first tail, bytes = first :: tail ∧
    (first = 0x6E ∨ first = 0x74 ∨ first = 0x66 ∨ first = 0x2D ∨ isDigit first = true ∨
      first = 0x22 ∨ first = 0x5B ∨ first = 0x7B) := by
  cases wellFormed with
  | null => exact ⟨_, _, rfl, by decide⟩
  | yes => exact ⟨_, _, rfl, by decide⟩
  | no => exact ⟨_, _, rfl, by decide⟩
  | number numeral =>
      cases numeral with
      | minus => exact ⟨_, _, rfl, by decide⟩
      | plus unsigned =>
          obtain ⟨first, tail, rfl, digit⟩ := unsigned.head
          exact ⟨first, tail, rfl, by simp [digit]⟩
  | text => exact ⟨_, _, rfl, by decide⟩
  | list _ listed =>
      cases listed
      exact ⟨_, _, rfl, by decide⟩
  | object => exact ⟨_, _, rfl, by decide⟩

theorem begins (wellFormed : WellFormed bytes) : Begins 0x5D bytes := by
  obtain ⟨first, tail, rfl, kind⟩ := wellFormed.head
  refine ⟨first, tail, rfl, ?_⟩
  rcases kind with rfl | rfl | rfl | rfl | digit | rfl | rfl | rfl
  case inr.inr.inr.inr.inl =>
    refine ⟨(isBlank_of_isDigit digit).1, ?_⟩
    rintro rfl
    cases digit
  all_goals decide

section Kinds

variable {tail : Bytes}

theorem of_null (wellFormed : WellFormed (0x6E :: tail)) : tail = [0x75, 0x6C, 0x6C] := by
  generalize same : 0x6E :: tail = bytes at wellFormed
  cases wellFormed
  case null => exact (List.cons.inj same).2
  case number numeral => exact absurd (same ▸ numeral).begins (by decide)
  case list listed =>
    cases listed
    cases same
  all_goals cases same

theorem of_quote (wellFormed : WellFormed (0x22 :: tail)) :
    ∃ quoted, Spelled quoted ∧ tail = quoted ++ [0x22] := by
  generalize same : 0x22 :: tail = bytes at wellFormed
  cases wellFormed
  case text spelled =>
    cases same
    exact ⟨_, spelled, rfl⟩
  case number numeral => exact absurd (same ▸ numeral).begins (by decide)
  case list listed =>
    cases listed
    cases same
  all_goals cases same

theorem of_listBracket (wellFormed : WellFormed (0x5B :: tail)) :
    ∃ parts, (∀ part ∈ parts, WellFormed part) ∧ ListOf parts (0x5B :: tail) := by
  generalize same : 0x5B :: tail = bytes at wellFormed
  cases wellFormed
  case list parts values listed => exact ⟨parts, values, same ▸ listed⟩
  case number numeral => exact absurd (same ▸ numeral).begins (by decide)
  all_goals cases same

theorem of_objectBracket (wellFormed : WellFormed (0x7B :: tail)) :
    ∃ entries inside, (∀ entry ∈ entries, Spelled entry.quoted) ∧
      (∀ entry ∈ entries, WellFormed entry.value) ∧
      Separated true (entryParts entries) inside ∧ tail = inside ++ [0x7D] := by
  generalize same : 0x7B :: tail = bytes at wellFormed
  cases wellFormed
  case object entries inside spelled values separated =>
    cases same
    exact ⟨entries, inside, spelled, values, separated, rfl⟩
  case number numeral => exact absurd (same ▸ numeral).begins (by decide)
  case list listed =>
    cases listed
    cases same
  all_goals cases same

theorem of_number {first : UInt8} (number : first = 0x2D ∨ isDigit first = true)
    (wellFormed : WellFormed (first :: tail)) : Numeral (first :: tail) := by
  generalize same : first :: tail = bytes at wellFormed
  cases wellFormed
  case number numeral => exact same ▸ numeral
  case list listed =>
    cases listed
    obtain ⟨rfl, -⟩ := List.cons.inj same
    exact absurd number (by decide)
  all_goals
    obtain ⟨rfl, -⟩ := List.cons.inj same
    exact absurd number (by decide)

end Kinds

theorem skips (wellFormed : WellFormed bytes) : Skips bytes := by
  induction wellFormed with
  | null => exact skips_of_token (List.cons_ne_nil _ _) fun _ _ => rfl
  | yes => exact skips_of_token (List.cons_ne_nil _ _) fun _ _ => rfl
  | no => exact skips_of_token (List.cons_ne_nil _ _) fun _ _ => rfl
  | number numeral =>
      obtain ⟨first, tail, shape, _⟩ := (number numeral).head
      exact skips_of_token (shape ▸ List.cons_ne_nil _ _) fun _ => numeral.skipToken
  | text spelled =>
      refine skips_of_token (List.cons_ne_nil _ _) fun rest _ => ?_
      rw [List.cons_append, List.append_assoc]
      exact congrArg (Except.map (none, ·)) (spelled.skipText rest)
  | list values listed ih =>
      obtain ⟨separated⟩ := listed
      exact skips_of_bracket (fun _ => rfl)
        (SkipsInside.list separated (fun part member => (values part member).begins) ih)
  | object spelled _ separated ih =>
      exact skips_of_bracket (fun _ => rfl) (SkipsInside.object separated spelled ih)

theorem passes (wellFormed : WellFormed bytes) : Passes bytes := wellFormed.skips.passes

end WellFormed

theorem Value.passes {bytes : Bytes} (value : Value bytes) : Passes bytes := value.wellFormed.passes

end CrawlBoard.Json
