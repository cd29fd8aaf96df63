import CrawlBoard.Proofs.Json.Locality
/-!
Readers that are steady: what is read of a well-formed value once is read of it everywhere, and
the reading ends where the value does.
-/

namespace CrawlBoard.Json

open Utf8 (Bytes)

variable {α β : Type}

def Steady (read : Reader α) : Prop :=
  ∀ ⦃bytes⦄, WellFormed bytes → ∀ ⦃lead rest a after⦄, Blanks lead → EndsValue rest →
    read (lead ++ (bytes ++ rest)) = .ok (a, after) → Reads read bytes a

theorem Reads.unique {read : Reader α} {bytes : Bytes} {a other : α} (reads : Reads read bytes a)
    (readsOther : Reads read bytes other) : a = other := by
  have ends : EndsValue [] := fun _ found => nomatch found
  have same := (reads [] [] .nil ends).symm.trans (readsOther [] [] .nil ends)
  exact (Prod.mk.inj (Except.ok.inj same)).1

theorem Steady.of_reads {read : Reader α} (steady : Steady read) {bytes : Bytes}
    (wellFormed : WellFormed bytes) (f : α → β) {b : β}
    (reads : Reads (fun rest => (read rest).map fun (a, rest) => (f a, rest)) bytes b) :
    ∃ a, Reads read bytes a ∧ b = f a := by
  have ends : EndsValue [] := fun _ found => nomatch found
  obtain ⟨⟨a, left⟩, shown, same⟩ := map_ok (reads [] [] .nil ends)
  cases same
  exact ⟨a, steady wellFormed .nil ends shown, rfl⟩

theorem value_shown {read : Reader α} {lead : Bytes} {first : UInt8} (leads : Blanks lead)
    (shown : isBlank first = false) (rest : Bytes) :
    value read (lead ++ first :: rest) = read (first :: rest) := by
  rw [value_lead _ leads, value, skipBlanks_cons shown]

namespace Steady

variable {read : Reader α}

theorem of_value (steady : ∀ first tail, WellFormed (first :: tail) → ∀ rest a after,
      EndsValue rest → read (first :: (tail ++ rest)) = .ok (a, after) →
      ∀ others, EndsValue others → read (first :: (tail ++ others)) = .ok (a, others)) :
    Steady (value read) := by
  intro bytes wellFormed lead rest a after leads ends shown others more othersLead otherEnds
  obtain ⟨first, tail, rfl, notBlank, _⟩ := wellFormed.begins
  rw [List.cons_append, value_shown leads notBlank] at shown
  rw [List.cons_append, value_shown othersLead notBlank]
  exact steady first tail wellFormed rest a after ends shown more otherEnds

theorem map (steady : Steady read) (f : α → β) :
    Steady fun rest => (read rest).map fun (a, rest) => (f a, rest) := by
  intro bytes wellFormed lead rest b after leads ends shown
  obtain ⟨⟨a, left⟩, shown, same⟩ := map_ok shown
  cases same
  exact (steady wellFormed leads ends shown).map f

theorem textOf (expected : String) : Steady (Json.textOf expected) := by
  refine of_value fun first tail wellFormed rest text after _ shown others _ => ?_
  by_cases quote : first = 0x22
  · subst quote
    obtain ⟨quoted, spelled, rfl⟩ := wellFormed.of_quote
    simp only [List.append_assoc] at shown ⊢
    exact spelled.readText shown others
  · split at shown
    · rename_i same
      exact absurd (List.cons.inj same).1 quote
    · exact absurd shown (mismatch_ne_ok _ _ _)

theorem text : Steady Json.text := textOf _

theorem unit : Steady Json.unit := by
  refine of_value fun first tail wellFormed rest text after _ shown others _ => ?_
  by_cases null : first = 0x6E
  · subst null
    obtain rfl := wellFormed.of_null
    rfl
  · split at shown
    · rename_i same
      exact absurd (List.cons.inj same).1 null
    · exact absurd shown (mismatch_ne_ok _ _ _)

theorem number (expected : String) : Steady (Json.number expected) := by
  refine of_value fun first tail wellFormed rest number after ends shown others otherEnds => ?_
  by_cases minus : first = 0x2D
  · subst minus
    cases wellFormed.of_number (.inl rfl) with
    | minus unsigned => exact unsigned.decides true ends.endsNumber shown otherEnds.endsNumber
    | plus unsigned =>
        obtain ⟨_, _, same, digit⟩ := unsigned.head
        cases same
        cases digit
  · simp only at shown ⊢
    split at shown
    · rename_i digit
      rw [if_pos digit]
      cases wellFormed.of_number (.inr digit) with
      | minus => cases digit
      | plus unsigned => exact unsigned.decides false ends.endsNumber shown otherEnds.endsNumber
    · exact absurd shown (mismatch_ne_ok _ _ _)

theorem natural (limit : Nat) (expected : String) : Steady (Json.natural limit expected) := by
  intro bytes wellFormed lead rest n after leads ends shown others more othersLead otherEnds
  obtain ⟨⟨given, left⟩, shown, taken⟩ := bind_ok shown
  have again := number expected wellFormed leads ends shown others more othersLead otherEnds
  cases given with
  | unsigned given =>
      simp only [Json.natural, again, bind, Except.bind] at taken ⊢
      split at taken
      · rename_i fits
        cases taken
        rw [if_pos fits]
      · cases taken
  | negative | real => cases taken

theorem float : Steady Json.float := (number "f64").map Number.toFloat

end Steady

def nullBytes : Bytes := [0x6E, 0x75, 0x6C, 0x6C]

theorem Reads.null (read : Reader α) : Reads (Json.optional read) nullBytes none := by
  intro lead rest leads _
  rw [nullBytes, List.cons_append, Json.optional, skipBlanks_lead leads, skipBlanks_cons rfl]
  rfl

theorem optional_shown (read : Reader α) {lead : Bytes} {first : UInt8} (leads : Blanks lead)
    (shown : isBlank first = false) (notNull : first ≠ 0x6E) (rest : Bytes) :
    optional read (lead ++ first :: rest) =
      (read (first :: rest)).map fun (a, rest) => (some a, rest) := by
  rw [optional, skipBlanks_lead leads, skipBlanks_cons shown]
  simp [notNull]

theorem Steady.optional {read : Reader α} (steady : Steady read) : Steady (Json.optional read) := by
  intro bytes wellFormed lead rest given after leads ends shown
  obtain ⟨first, tail, rfl, notBlank, _⟩ := wellFormed.begins
  by_cases null : first = 0x6E
  · subst null
    obtain rfl := wellFormed.of_null
    have none := (Reads.null read lead rest leads ends).symm.trans shown
    cases none
    exact .null read
  · rw [List.cons_append, optional_shown read leads notBlank null] at shown
    obtain ⟨⟨a, left⟩, shown, same⟩ := map_ok shown
    cases same
    have reads := steady wellFormed .nil ends shown
    intro lead rest leads ends
    have whole := reads [] rest .nil ends
    rw [List.nil_append, List.cons_append] at whole
    rw [List.cons_append, optional_shown read leads notBlank null, whole]
    rfl

theorem textOf_quote (expected : String) {lead : Bytes} (leads : Blanks lead) (rest : Bytes) :
    textOf expected (lead ++ 0x22 :: rest) = readText rest :=
  value_shown leads rfl rest

theorem Spelled.choose {variants : List (String × α)} {quoted lead rest after : Bytes} {chosen : α}
    (spelled : Spelled quoted) (leads : Blanks lead)
    (shown : variant.choose variants (lead ++ 0x22 :: (quoted ++ 0x22 :: rest)) = .ok (chosen, after)) :
    after = rest ∧ ∀ others, variant.choose variants (lead ++ 0x22 :: (quoted ++ 0x22 :: others)) =
      .ok (chosen, others) := by
  obtain ⟨⟨name, left⟩, read, known⟩ := bind_ok shown
  rw [textOf_quote _ leads] at read
  have here := (spelled.readText read rest).symm.trans read
  cases here
  cases found : variants.lookup name with
  | none => simp only [found] at known; cases known
  | some other =>
      simp only [found] at known
      cases known
      refine ⟨rfl, fun others => ?_⟩
      have there := spelled.readText read others
      simp only [variant.choose, textOf_quote _ leads, there, bind, Except.bind, found]

def variantEnd (chosen : α) (rest : Bytes) : Except Failure (α × Bytes) := do
  let rest ← colon rest
  let ((), rest) ← unit rest
  match skipBlanks rest with
  | [] => fail .endOfObject []
  | 0x7D :: rest => .ok (chosen, rest)
  | rest => fail .expectedValue rest

theorem variantEnd_local {entry : Entry} (value : WellFormed entry.value) {more : Bytes}
    {parts : List Bytes} (separated : Separated false parts more) {rest after : Bytes}
    {chosen found : α}
    (shown : variantEnd chosen (entry.trail ++ 0x3A :: (entry.lead ++ (entry.value ++
      (more ++ 0x7D :: rest)))) = .ok (found, after)) (others : Bytes) :
    variantEnd chosen (entry.trail ++ 0x3A :: (entry.lead ++ (entry.value ++
      (more ++ 0x7D :: others)))) = .ok (found, others) := by
  have ends (rest : Bytes) := separated.endsValue (.inr rfl : (0x7D : UInt8) = 0x5D ∨ _) rest
  simp only [variantEnd, colon_trail entry.trails] at shown ⊢
  obtain ⟨⟨given, left⟩, null, shown⟩ :=
    (bind_ok shown : ∃ read, Json.unit _ = .ok read ∧ _)
  have reads := Steady.unit value entry.leads (ends rest) null
  have here := (reads _ _ entry.leads (ends rest)).symm.trans null
  cases here
  simp only [bind, Except.bind, reads _ _ entry.leads (ends others)]
  cases separated with
  | done trails =>
      simp only [skipBlanks_lead trails, skipBlanks_cons (rfl : isBlank 0x7D = false)] at shown ⊢
      cases shown
      rfl
  | part before =>
      cases before with
      | comma trails =>
          rw [List.append_assoc, List.append_assoc, skipBlanks_lead trails, List.cons_append,
            skipBlanks_cons rfl] at shown
          cases shown

theorem variantObject_local {variants : List (String × α)} {entries : List Entry} {inside : Bytes}
    (spelled : ∀ entry ∈ entries, Spelled entry.quoted)
    (values : ∀ entry ∈ entries, WellFormed entry.value)
    (separated : Separated true (entryParts entries) inside) {rest after : Bytes} {chosen : α}
    (shown : (variant.choose variants (inside ++ 0x7D :: rest) >>= fun found =>
      variantEnd found.1 found.2) = .ok (chosen, after)) (others : Bytes) :
    (variant.choose variants (inside ++ 0x7D :: others) >>= fun found =>
      variantEnd found.1 found.2) = .ok (chosen, others) := by
  obtain ⟨⟨found, left⟩, name, shown⟩ := bind_ok shown
  cases entries with
  | nil =>
      cases separated with
      | done trails =>
          obtain ⟨⟨text, left⟩, read, _⟩ := bind_ok name
          rw [textOf, value_shown trails (rfl : isBlank 0x7D = false)] at read
          cases read
  | cons entry entries =>
      cases separated with
      | part before separated =>
          cases before with
          | first leads =>
              simp only [Entry.bytes, List.append_assoc, List.cons_append] at name ⊢
              obtain ⟨rfl, again⟩ := (spelled entry List.mem_cons_self).choose leads name
              simp only [again, bind, Except.bind]
              exact variantEnd_local (values entry List.mem_cons_self) separated shown others

theorem Steady.variant (variants : List (String × α)) : Steady (Json.variant variants) := by
  refine of_value fun first tail wellFormed rest chosen after ends shown others otherEnds => ?_
  by_cases quote : first = 0x22
  · subst quote
    obtain ⟨quoted, spelled, rfl⟩ := wellFormed.of_quote
    rw [List.append_assoc] at shown ⊢
    exact (spelled.choose .nil shown).2 others
  by_cases brace : first = 0x7B
  · subst brace
    obtain ⟨entries, inside, spelled, values, separated, rfl⟩ := wellFormed.of_objectBracket
    rw [List.append_assoc] at shown ⊢
    exact variantObject_local spelled values separated shown others
  · split at shown
    · rename_i same
      exact absurd (List.cons.inj same).1 brace
    · rename_i same
      exact absurd (List.cons.inj same).1 quote
    · cases shown

section Lists

variable {read : Reader α} {parts : List Bytes}

theorem elements_parts (steady : Steady read) (values : ∀ part ∈ parts, WellFormed part)
    {first : Bool} {inside : Bytes} (separated : Separated first parts inside) {fuel : Nat}
    {rest after : Bytes} {items : List α}
    (shown : elements read fuel first (inside ++ 0x5D :: rest) = .ok (items, after)) :
    List.Forall₂ (Reads read) parts items := by
  induction separated generalizing fuel items after with
  | @done first trail trails =>
      cases fuel with
      | zero => cases shown
      | succ fuel =>
          rw [elements, nextElement_end first trails] at shown
          cases shown
          exact .nil
  | @part first gap part more parts before others ih =>
      obtain ⟨value, values⟩ := List.forall_mem_cons.mp values
      have ends := others.endsValue (.inl rfl) rest
      cases fuel with
      | zero => cases shown
      | succ fuel =>
          rw [List.append_assoc, List.append_assoc, elements,
            before.nextElement value.begins] at shown
          change (read _ >>= _) = _ at shown
          obtain ⟨⟨item, left⟩, head, shown⟩ := bind_ok shown
          have reads := steady value .nil ends head
          have same := (reads [] _ .nil ends).symm.trans head
          cases same
          obtain ⟨⟨items, left⟩, tail, shown⟩ := bind_ok shown
          cases shown
          exact .cons reads (ih values tail)

theorem Steady.list_parts (steady : Steady read) (values : ∀ part ∈ parts, WellFormed part)
    {bytes : Bytes} (listed : ListOf parts bytes) {lead rest after : Bytes} {items : List α}
    (leads : Blanks lead)
    (shown : Json.list read (lead ++ (bytes ++ rest)) = .ok (items, after)) :
    List.Forall₂ (Reads read) parts items := by
  obtain ⟨separated⟩ := listed
  rw [List.cons_append, List.append_assoc, Json.list, value_shown leads rfl] at shown
  obtain ⟨⟨given, left⟩, inner, shown⟩ := bind_ok shown
  obtain ⟨closed, _, same⟩ := bind_ok shown
  cases same
  exact elements_parts steady values separated inner

theorem Reads.elements {items : List α} {bytes : Bytes} (reads : Reads (Json.list read) bytes items)
    (steady : Steady read) (values : ∀ part ∈ parts, WellFormed part) (listed : ListOf parts bytes) :
    List.Forall₂ (Reads read) parts items :=
  steady.list_parts values listed .nil (reads [] [] .nil fun _ found => nomatch found)

theorem Steady.list (steady : Steady read) : Steady (Json.list read) := by
  intro bytes wellFormed lead rest items after leads ends shown
  obtain ⟨first, tail, rfl, notBlank, _⟩ := wellFormed.begins
  by_cases bracket : first = 0x5B
  · subst bracket
    obtain ⟨parts, values, listed⟩ := wellFormed.of_listBracket
    exact .listOf (steady.list_parts values listed leads shown)
      (fun part present => (values part present).begins) listed
  · rw [List.cons_append, Json.list, value_shown leads notBlank] at shown
    split at shown
    · rename_i same
      exact absurd (List.cons.inj same).1 bracket
    · exact absurd shown (mismatch_ne_ok _ _ _)

end Lists

end CrawlBoard.Json
