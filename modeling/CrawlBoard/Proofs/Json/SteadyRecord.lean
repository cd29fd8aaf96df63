import CrawlBoard.Proofs.Json.Steady

namespace CrawlBoard.Json

open Utf8 (Bytes)

variable {α : Type}

theorem settle_ok {outcome : Except Fault α} {closing : Bytes × Except Failure Unit} {a : α}
    {after : Bytes} (shown : settle outcome closing = .ok (a, after)) :
    outcome = .ok a ∧ closing = (after, .ok ()) := by
  obtain ⟨left, closed⟩ := closing
  cases outcome with
  | error => cases shown
  | ok given =>
      obtain ⟨_, rfl, same⟩ := map_ok shown
      cases same
      exact ⟨rfl, rfl⟩

section Closing

variable {trail rest : Bytes}

theorem closeList_end (trails : Blanks trail) (rest : Bytes) :
    closeList (trail ++ 0x5D :: rest) = (rest, .ok ()) := by
  rw [closeList, skipBlanks_lead trails]
  rfl

theorem Gap.closeList {first : Bool} {gap part : Bytes} (before : Gap first gap)
    (begins : Begins 0x5D part) (rest : Bytes) :
    (closeList (gap ++ (part ++ rest))).2 ≠ .ok () := by
  have other (byte : UInt8) (tail : Bytes) (notEnd : byte ≠ 0x5D) (notBlank : isBlank byte = false)
      {lead : Bytes} (leads : Blanks lead) :
      (Json.closeList (lead ++ byte :: tail)).2 ≠ .ok () := by
    rw [Json.closeList, skipBlanks_lead leads, skipBlanks_cons notBlank]
    split
    · exact fun same => nomatch same
    · rename_i same
      exact absurd (List.cons.inj same).1 notEnd
    · split <;> exact fun same => nomatch same
    · exact fun same => nomatch same
  obtain ⟨byte, tail, rfl, notBlank, notEnd⟩ := begins
  cases before with
  | first leads => exact other byte _ notEnd notBlank leads
  | comma trails leads =>
      rw [List.append_assoc]
      exact other 0x2C _ (by decide) rfl trails

end Closing

section Records

variable {φ δ : Type} {shape : Shape φ δ α}

/-- The parts of a list, field by field, take one draft to another. -/
inductive Shape.Places (shape : Shape φ δ α) : List φ → δ → List Bytes → δ → Prop
  | done {left : List φ} (draft : δ) (optional : ∀ field ∈ left, shape.optional field = true) :
      Places shape left draft [] draft
  | next {field : φ} {left : List φ} {draft next last : δ} {part : Bytes} {parts : List Bytes}
      (reads : Reads (shape.read field draft) part next) (others : Places shape left next parts last) :
      Places shape (field :: left) draft (part :: parts) last

theorem Shape.positions_end (shape : Shape φ δ α) {trail : Bytes} (trails : Blanks trail)
    {left : List φ} (optional : ∀ field ∈ left, shape.optional field = true) (index : Nat)
    (first : Bool) (draft : δ) (rest : Bytes) : ∃ more, Blanks more ∧
      shape.positions left index first draft (trail ++ 0x5D :: rest) =
        .ok (shape.finish draft, more ++ 0x5D :: rest) := by
  induction left generalizing index trail with
  | nil => exact ⟨trail, trails, rfl⟩
  | cons field left ih =>
      have ⟨head, tail⟩ := List.forall_mem_cons.mp optional
      obtain ⟨more, blanks, read⟩ := ih .nil tail (index + 1)
      refine ⟨more, blanks, ?_⟩
      rw [Shape.positions, nextElement_end first trails]
      simp only [bind, Except.bind, head, if_true]
      exact read

theorem optional_of_positions {trail : Bytes} (trails : Blanks trail) {left : List φ} {index : Nat}
    {first : Bool} {draft : δ} {rest after : Bytes} {a : α}
    (shown : shape.positions left index first draft (trail ++ 0x5D :: rest) = .ok (.ok a, after)) :
    ∀ field ∈ left, shape.optional field = true := by
  induction left generalizing index trail with
  | nil => exact fun _ member => nomatch member
  | cons field left ih =>
      rw [Shape.positions, nextElement_end first trails] at shown
      simp only [bind, Except.bind] at shown
      split at shown
      · rename_i optional
        exact List.forall_mem_cons.mpr ⟨optional, ih .nil shown⟩
      · cases shown

theorem Shape.Places.positions {left : List φ} {draft last : δ} {parts : List Bytes}
    (places : shape.Places left draft parts last) (begins : ∀ part ∈ parts, Begins 0x5D part)
    {first : Bool} {inside : Bytes} (separated : Separated first parts inside) (index : Nat)
    (rest : Bytes) : ∃ more, Blanks more ∧
      shape.positions left index first draft (inside ++ 0x5D :: rest) =
        .ok (shape.finish last, more ++ 0x5D :: rest) := by
  induction places generalizing index first inside with
  | done draft optional =>
      cases separated with
      | done trails => exact shape.positions_end trails optional index first draft rest
  | next reads _ ih =>
      have ⟨begin, begins⟩ := List.forall_mem_cons.mp begins
      cases separated with
      | part before separated =>
          obtain ⟨more, blanks, read⟩ := ih begins separated (index + 1)
          have head := reads [] _ .nil (separated.endsValue (.inl rfl) rest)
          refine ⟨more, blanks, ?_⟩
          rw [List.nil_append] at head
          rw [List.append_assoc, List.append_assoc, Shape.positions, before.nextElement begin]
          simp only [bind, Except.bind, head]
          exact read

theorem Shape.record_list (shape : Shape φ δ α) {lead : Bytes} (leads : Blanks lead)
    (inside rest : Bytes) : shape.record (lead ++ (0x5B :: (inside ++ [0x5D]) ++ rest)) =
      shape.positions shape.fields 0 true shape.blank (inside ++ 0x5D :: rest)
        >>= fun read => settle read.1 (closeList read.2) := by
  rw [Shape.record, value_lead _ leads, List.cons_append, List.append_assoc]
  rfl

theorem Shape.Places.reads {parts : List Bytes} {last : δ} {a : α}
    (places : shape.Places shape.fields shape.blank parts last)
    (finished : shape.finish last = .ok a) (begins : ∀ part ∈ parts, Begins 0x5D part)
    {bytes : Bytes} (listed : ListOf parts bytes) : Reads shape.record bytes a := by
  intro lead rest leads _
  obtain ⟨separated⟩ := listed
  obtain ⟨more, blanks, read⟩ := places.positions begins separated 0 rest
  rw [shape.record_list leads]
  simp only [read, bind, Except.bind, finished, closeList_end blanks]
  rfl

variable (steady : ∀ field draft, Steady (shape.read field draft))
include steady

theorem takes_of_members {first : Bool} {gap : Bytes} (before : Gap first gap) {entry : Entry}
    (spelled : Spelled entry.quoted) (value : WellFormed entry.value) {fuel : Nat} {draft : δ}
    {rest after : Bytes} {a : α} (ends : EndsValue rest)
    (shown : shape.members fuel first draft (gap ++ (0x22 :: entry.bytes ++ rest)) =
      .ok (.ok a, after)) :
    ∃ fewer next, fuel = fewer + 1 ∧ shape.Takes entry draft next ∧
      shape.members fewer false next rest = .ok (.ok a, after) := by
  cases fuel with
  | zero => cases shown
  | succ fuel =>
      have ⟨name, named⟩ : ∃ name, entry.Named name := by
        rw [List.cons_append, Shape.members, before.nextName, Entry.bytes, List.append_assoc] at shown
        change (readText _ >>= _) = _ at shown
        obtain ⟨⟨name, left⟩, read, _⟩ := bind_ok shown
        exact ⟨name, spelled.readText read⟩
      rw [shape.members_entry before named] at shown
      cases known : shape.field? name with
      | none =>
          simp only [known] at shown
          rw [value.passes entry.lead rest entry.leads ends] at shown
          exact ⟨fuel, draft, rfl, .unknown named known value.passes, shown⟩
      | some field =>
          simp only [known] at shown
          split at shown
          · cases shown
          · rename_i isOpen
            obtain ⟨⟨next, left⟩, read, shown⟩ := bind_ok shown
            -- What stands behind the value was left, because the reader is steady.
            have reads := steady field draft value entry.leads ends read
            have same := (reads _ _ entry.leads ends).symm.trans read
            cases same
            exact ⟨fuel, next, rfl, .field named known (by simpa using isOpen) reads, shown⟩

theorem members_local {entries : List Entry} (spelled : ∀ entry ∈ entries, Spelled entry.quoted)
    (values : ∀ entry ∈ entries, WellFormed entry.value) {first : Bool} {inside : Bytes}
    (separated : Separated first (entryParts entries) inside) {fuel : Nat} {draft : δ}
    {rest after : Bytes} {a : α}
    (shown : shape.members fuel first draft (inside ++ 0x7D :: rest) = .ok (.ok a, after))
    {enough : Nat} (more : entries.length < enough) (others : Bytes) :
    shape.members enough first draft (inside ++ 0x7D :: others) = .ok (.ok a, 0x7D :: others) := by
  induction entries generalizing fuel enough first draft inside with
  | nil =>
      obtain ⟨enough, rfl⟩ := Nat.exists_eq_succ_of_ne_zero (Nat.ne_of_gt more)
      cases separated with
      | done trails =>
          cases fuel with
          | zero => cases shown
          | succ fuel =>
              rw [shape.members_end first trails] at shown ⊢
              rw [(Prod.mk.inj (Except.ok.inj shown)).1]
  | cons entry entries ih =>
      obtain ⟨enough, rfl⟩ := Nat.exists_eq_succ_of_ne_zero (Nat.ne_of_gt (Nat.zero_lt_of_lt more))
      have ⟨name, spelled⟩ := List.forall_mem_cons.mp spelled
      have ⟨value, values⟩ := List.forall_mem_cons.mp values
      cases separated with
      | part before separated =>
          have ends := separated.endsValue (.inr rfl : (0x7D : UInt8) = 0x5D ∨ _)
          rw [List.append_assoc, List.append_assoc] at shown ⊢
          obtain ⟨fewer, next, rfl, takes, shown⟩ :=
            takes_of_members steady before name value (ends rest) shown
          rw [takes.members before (ends others)]
          exact ih spelled values separated shown (Nat.lt_of_succ_lt_succ more)

theorem fills_of_members {members : List Member}
    (values : ∀ member ∈ members, WellFormed member.value) {first : Bool} {inside : Bytes}
    (separated : Separated first (entryParts (members.map Member.entry)) inside) {fuel : Nat}
    {draft : δ} {rest after : Bytes} {a : α}
    (shown : shape.members fuel first draft (inside ++ 0x7D :: rest) = .ok (.ok a, after)) :
    ∃ last, Fills shape draft members last ∧ shape.finish last = .ok a := by
  induction members generalizing fuel first draft inside with
  | nil =>
      cases separated with
      | done trails =>
          cases fuel with
          | zero => cases shown
          | succ fuel =>
              rw [shape.members_end first trails] at shown
              exact ⟨draft, .done draft, (Prod.mk.inj (Except.ok.inj shown)).1⟩
  | cons member members ih =>
      have ⟨value, values⟩ := List.forall_mem_cons.mp values
      cases separated with
      | part before separated =>
          have ends := separated.endsValue (.inr rfl : (0x7D : UInt8) = 0x5D ∨ _)
          rw [List.append_assoc, List.append_assoc] at shown
          obtain ⟨fewer, next, rfl, takes, shown⟩ :=
            takes_of_members steady before member.written.spelled value (ends rest) shown
          obtain ⟨last, fills, finished⟩ := ih values separated shown
          exact ⟨last, takes.fills fills, finished⟩

theorem places_of_positions {parts : List Bytes} (values : ∀ part ∈ parts, WellFormed part)
    {first : Bool} {inside : Bytes} (separated : Separated first parts inside) {left : List φ}
    {index : Nat} {draft : δ} {rest after behind : Bytes} {a : α}
    (shown : shape.positions left index first draft (inside ++ 0x5D :: rest) = .ok (.ok a, after))
    (closed : closeList after = (behind, .ok ())) :
    ∃ last, shape.Places left draft parts last ∧ shape.finish last = .ok a := by
  induction separated generalizing left index draft with
  | @done first trail trails =>
      have optional := optional_of_positions trails shown
      obtain ⟨more, _, read⟩ := shape.positions_end trails optional index first draft rest
      rw [read] at shown
      exact ⟨draft, .done draft optional, (Prod.mk.inj (Except.ok.inj shown)).1⟩
  | @part first gap part more parts before others ih =>
      have ⟨value, values⟩ := List.forall_mem_cons.mp values
      rw [List.append_assoc, List.append_assoc] at shown
      cases left with
      | nil =>
          obtain rfl := (Prod.mk.inj (Except.ok.inj shown)).2
          exact absurd (congrArg Prod.snd closed) (before.closeList value.begins _)
      | cons field left =>
          have ends := others.endsValue (.inl rfl) rest
          rw [Shape.positions, before.nextElement value.begins] at shown
          change (shape.read field draft _ >>= _) = _ at shown
          obtain ⟨⟨next, left⟩, head, shown⟩ := bind_ok shown
          have reads := steady field draft value .nil ends head
          have same := (reads [] _ .nil ends).symm.trans head
          cases same
          obtain ⟨last, places, finished⟩ := ih values shown
          exact ⟨last, .next reads places, finished⟩

theorem fills_of_record {members : List Member}
    (values : ∀ member ∈ members, WellFormed member.value) {bytes : Bytes}
    (listed : ObjectOf members bytes) {a : α} (reads : Reads shape.record bytes a) :
    ∃ last, Fills shape shape.blank members last ∧ shape.finish last = .ok a := by
  obtain ⟨separated⟩ := listed
  have shown := reads [] [] .nil fun _ found => nomatch found
  rw [shape.record_object .nil] at shown
  obtain ⟨⟨outcome, left⟩, inner, settled⟩ := bind_ok shown
  obtain ⟨rfl, _⟩ := settle_ok settled
  rw [← entryParts_map] at separated
  exact fills_of_members steady values separated inner

theorem places_of_record {parts : List Bytes} (values : ∀ part ∈ parts, WellFormed part)
    {bytes lead rest after : Bytes} (listed : ListOf parts bytes) (leads : Blanks lead) {a : α}
    (shown : shape.record (lead ++ (bytes ++ rest)) = .ok (a, after)) :
    ∃ last, shape.Places shape.fields shape.blank parts last ∧ shape.finish last = .ok a := by
  obtain ⟨separated⟩ := listed
  rw [shape.record_list leads] at shown
  obtain ⟨⟨outcome, left⟩, inner, settled⟩ := bind_ok shown
  obtain ⟨rfl, closed⟩ := settle_ok settled
  exact places_of_positions steady values separated inner closed

theorem Steady.record : Steady shape.record := by
  intro bytes wellFormed lead rest a after leads ends shown
  obtain ⟨first, tail, rfl, notBlank, _⟩ := wellFormed.begins
  by_cases brace : first = 0x7B
  · subst brace
    obtain ⟨entries, inside, spelled, values, separated, rfl⟩ := wellFormed.of_objectBracket
    rw [shape.record_object leads] at shown
    obtain ⟨⟨outcome, left⟩, inner, settled⟩ := bind_ok shown
    obtain ⟨rfl, _⟩ := settle_ok settled
    have parts := separated.length_le fun part member => by
      obtain ⟨_, _, rfl⟩ := List.mem_map.mp member
      exact List.cons_ne_nil _ _
    rw [entryParts, List.length_map] at parts
    intro lead rest leads _
    have again := members_local steady spelled values separated inner
      (by simp only [List.length_append]; omega : entries.length < (inside ++ 0x7D :: rest).length + 1)
      rest
    rw [shape.record_object leads]
    simp only [again, bind, Except.bind]
    rfl
  by_cases bracket : first = 0x5B
  · subst bracket
    obtain ⟨parts, values, listed⟩ := wellFormed.of_listBracket
    obtain ⟨last, places, finished⟩ := places_of_record steady values listed leads shown
    exact places.reads finished (fun part present => (values part present).begins) listed
  · rw [List.cons_append, Shape.record, value_shown leads notBlank] at shown
    split at shown
    · rename_i same
      exact absurd (List.cons.inj same).1 brace
    · rename_i same
      exact absurd (List.cons.inj same).1 bracket
    · exact absurd shown (mismatch_ne_ok _ _ _)

end Records

end CrawlBoard.Json
