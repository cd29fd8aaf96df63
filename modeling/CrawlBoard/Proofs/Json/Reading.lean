import CrawlBoard.Json.Record
import CrawlBoard.Proofs.Json.Numeral
import CrawlBoard.Proofs.Json.Quote
import Mathlib.Data.List.Forall2
/-!
Readers read what is written. The laws hold behind any blanks and before anything that may follow
a value in a document, so that they compose: a list is read if its elements are, and a record if
its members fill its draft one after the other.
-/

namespace CrawlBoard.Json

open Utf8 (Bytes)

/-! Blanks. -/

section Blanks

variable {lead rest : Bytes} {byte : UInt8}

theorem skipBlanks_lead (leads : Blanks lead) (rest : Bytes) :
    skipBlanks (lead ++ rest) = skipBlanks rest :=
  List.dropWhile_append_of_pos leads

theorem skipBlanks_cons (shown : isBlank byte = false) (rest : Bytes) :
    skipBlanks (byte :: rest) = byte :: rest :=
  List.dropWhile_cons_of_neg (by simp [shown])

theorem skipBlanks_blanks (leads : Blanks lead) : skipBlanks lead = [] := by
  rw [← List.append_nil lead, skipBlanks_lead leads]
  rfl

theorem value_lead {α : Type} (read : Reader α) (leads : Blanks lead) (rest : Bytes) :
    value read (lead ++ rest) = value read rest := by
  rw [value, skipBlanks_lead leads, value]

/-- What may follow a value: the end of the document, a blank, a comma or a closing bracket. -/
def EndsValue (rest : Bytes) : Prop :=
  ∀ byte ∈ rest.head?, isBlank byte = true ∨ byte = 0x2C ∨ byte = 0x5D ∨ byte = 0x7D

theorem EndsValue.behind (leads : Blanks lead) (ends : EndsValue rest) : EndsValue (lead ++ rest) := by
  cases lead with
  | nil => exact ends
  | cons byte lead =>
      intro other found
      cases found
      exact .inl (leads byte List.mem_cons_self)

theorem endsValue_cons (ends : byte = 0x2C ∨ byte = 0x5D ∨ byte = 0x7D) (rest : Bytes) :
    EndsValue (byte :: rest) := by
  intro other found
  cases found
  exact .inr ends

theorem endsValue_blanks (leads : Blanks lead) : EndsValue lead := by
  have ends := EndsValue.behind leads (fun _ found => nomatch found : EndsValue [])
  rwa [List.append_nil] at ends

theorem EndsValue.endsNumber (ends : EndsValue rest) : EndsNumber rest := by
  intro byte found
  rcases ends byte found with blank | rfl | rfl | rfl
  · simp only [isBlank, Bool.or_eq_true, beq_iff_eq] at blank
    rcases blank with ((rfl | rfl) | rfl) | rfl <;> decide
  · decide
  · decide
  · decide

end Blanks

variable {α β : Type}

/-- The bytes are read as `a`, whatever blanks stand in front and whatever follows. -/
def Reads (read : Reader α) (bytes : Bytes) (a : α) : Prop :=
  ∀ lead rest, Blanks lead → EndsValue rest → read (lead ++ (bytes ++ rest)) = .ok (a, rest)

def Passes (bytes : Bytes) : Prop :=
  ∀ lead rest, Blanks lead → EndsValue rest → skipValue (lead ++ (bytes ++ rest)) = .ok rest

/-- A text that a list can begin with, and that is not taken for `null`. -/
def Opens (bytes : Bytes) : Prop :=
  ∃ first tail, bytes = first :: tail ∧ isBlank first = false ∧ first ≠ 0x5D ∧ first ≠ 0x6E

def Begins (close : UInt8) (bytes : Bytes) : Prop :=
  ∃ byte tail, bytes = byte :: tail ∧ isBlank byte = false ∧ byte ≠ close

theorem Opens.begins {bytes : Bytes} (opens : Opens bytes) : Begins 0x5D bytes := by
  obtain ⟨first, tail, shape, notBlank, notEnd, _⟩ := opens
  exact ⟨first, tail, shape, notBlank, notEnd⟩

theorem opens_quoted {text : String} {bytes : Bytes} (quoted : Quoted text bytes) : Opens bytes := by
  cases quoted
  exact ⟨_, _, rfl, by decide⟩

theorem opens_listOf {parts : List Bytes} {bytes : Bytes} (listed : ListOf parts bytes) :
    Opens bytes := by
  cases listed
  exact ⟨_, _, rfl, by decide⟩

theorem opens_objectOf {members : List Member} {bytes : Bytes} (listed : ObjectOf members bytes) :
    Opens bytes := by
  cases listed
  exact ⟨_, _, rfl, by decide⟩

namespace Reads

variable {bytes : Bytes} {a : α}

theorem map {read : Reader α} (reads : Reads read bytes a) (f : α → β) :
    Reads (fun rest => (read rest).map fun (a, rest) => (f a, rest)) bytes (f a) := by
  intro lead rest leads ends
  simp only [reads lead rest leads ends]
  rfl

theorem document {read : Reader α} (reads : Reads read bytes a) {lead trail : Bytes}
    (leads : Blanks lead) (trails : Blanks trail) :
    Json.document read (lead ++ (bytes ++ trail)) = .ok a := by
  simp only [Json.document, reads lead trail leads (endsValue_blanks trails), bind, Except.bind,
    skipBlanks_blanks trails]

theorem textOf (expected : String) {value : String} (quoted : Quoted value bytes) :
    Reads (Json.textOf expected) bytes value := by
  intro lead rest leads _
  obtain ⟨written⟩ := quoted
  rw [Json.textOf, value_lead _ leads, List.cons_append, List.append_assoc]
  exact written.readText rest

theorem text {value : String} (quoted : Quoted value bytes) : Reads Json.text bytes value :=
  textOf _ quoted

theorem natural {limit number : Nat} (expected : String) (fits : number ≤ limit)
    (word : limit ≤ maxWord) : Reads (Json.natural limit expected) (digitBytes number) number := by
  intro lead rest leads ends
  have read := number_append (number_digitBytes (Nat.le_trans fits word) expected) ends.endsNumber
  rw [Json.natural, Json.number, value_lead _ leads]
  rw [Json.number] at read
  simp only [read, bind, Except.bind, if_pos fits]

theorem optional {read : Reader α} (reads : Reads read bytes a) (opens : Opens bytes) :
    Reads (Json.optional read) bytes (some a) := by
  intro lead rest leads ends
  have whole := reads [] rest .nil ends
  obtain ⟨first, tail, rfl, notBlank, _, notNull⟩ := opens
  unfold Json.optional
  rw [skipBlanks_lead leads, List.cons_append, skipBlanks_cons notBlank]
  rw [List.nil_append, List.cons_append] at whole
  simp [notNull, whole, Except.map]

theorem variant {variants : List (String × α)} {name : String} {chosen : α}
    (known : variants.lookup name = some chosen) (quoted : Quoted name bytes) :
    Reads (Json.variant variants) bytes chosen := by
  intro lead rest leads ends
  have whole := textOf "variant identifier" quoted [] rest .nil ends
  obtain ⟨written⟩ := quoted
  rw [Json.variant, value_lead _ leads, List.cons_append]
  rw [List.nil_append, List.cons_append] at whole
  change Json.variant.choose variants _ = _
  simp only [Json.variant.choose, whole, bind, Except.bind, known]

end Reads

/-! Parts between commas. -/

section Separated

variable {first : Bool} {gap part more inside trail : Bytes} {parts : List Bytes}

theorem Separated.endsValue (separated : Separated false parts more) {bracket : UInt8}
    (isBracket : bracket = 0x5D ∨ bracket = 0x7D) (rest : Bytes) :
    EndsValue (more ++ bracket :: rest) := by
  cases separated with
  | done trails => exact (endsValue_cons (.inr isBracket) rest).behind trails
  | part before others =>
      cases before with
      | comma trails leads =>
          rw [List.append_assoc, List.append_assoc, List.cons_append]
          exact (endsValue_cons (.inl rfl) _).behind trails

theorem Separated.length_le (separated : Separated first parts inside)
    (given : ∀ part ∈ parts, part ≠ []) : parts.length ≤ inside.length := by
  induction separated with
  | done => exact Nat.zero_le _
  | @part first gap part more parts before others ih =>
      have rest := ih fun other member => given other (List.mem_cons_of_mem _ member)
      have some := List.length_pos_iff.mpr (given part List.mem_cons_self)
      simp only [List.length_cons, List.length_append]
      omega

theorem nextElement_end (first : Bool) (trails : Blanks trail) (rest : Bytes) :
    nextElement first (trail ++ 0x5D :: rest) = .ok (false, 0x5D :: rest) := by
  rw [nextElement, skipBlanks_lead trails]
  rfl

theorem Gap.nextElement (before : Gap first gap) (begins : Begins 0x5D part) (rest : Bytes) :
    nextElement first (gap ++ (part ++ rest)) = .ok (true, part ++ rest) := by
  obtain ⟨byte, tail, rfl, notBlank, notEnd⟩ := begins
  cases before with
  | first leads =>
      rw [Json.nextElement, skipBlanks_lead leads, List.cons_append, skipBlanks_cons notBlank]
      simp
  | comma trails leads =>
      rw [Json.nextElement, List.append_assoc, skipBlanks_lead trails, List.cons_append,
        skipBlanks_cons rfl]
      simp [skipBlanks_lead leads, skipBlanks_cons notBlank, notEnd]

theorem nextName_end (first : Bool) (trails : Blanks trail) (rest : Bytes) :
    nextName first (trail ++ 0x7D :: rest) = .ok (false, 0x7D :: rest) := by
  rw [nextName, skipBlanks_lead trails]
  rfl

theorem Gap.nextName (before : Gap first gap) (rest : Bytes) :
    nextName first (gap ++ 0x22 :: rest) = .ok (true, rest) := by
  cases before with
  | first leads =>
      rw [Json.nextName, skipBlanks_lead leads]
      rfl
  | comma trails leads =>
      rw [Json.nextName, List.append_assoc, skipBlanks_lead trails, List.cons_append,
        skipBlanks_cons rfl]
      simp [skipBlanks_lead leads, skipBlanks_cons (rfl : isBlank 0x22 = false)]

end Separated

theorem colon_trail {trail : Bytes} (trails : Blanks trail) (rest : Bytes) :
    colon (trail ++ 0x3A :: rest) = .ok rest := by
  rw [colon, skipBlanks_lead trails]
  rfl

/-! Lists. -/

theorem elements_separated {read : Reader α} {parts : List Bytes} {items : List α}
    (reads : List.Forall₂ (Reads read) parts items) (begins : ∀ part ∈ parts, Begins 0x5D part)
    {first : Bool} {inside : Bytes} (separated : Separated first parts inside) (fuel : Nat)
    (enough : parts.length < fuel) (rest : Bytes) :
    elements read fuel first (inside ++ 0x5D :: rest) = .ok (items, 0x5D :: rest) := by
  induction reads generalizing fuel first inside with
  | nil =>
      obtain ⟨fuel, rfl⟩ := Nat.exists_eq_succ_of_ne_zero (Nat.ne_of_gt enough)
      cases separated with
      | done trails =>
          rw [elements, nextElement_end first trails]
          rfl
  | @cons part item parts items reads _ ih =>
      obtain ⟨fuel, rfl⟩ := Nat.exists_eq_succ_of_ne_zero (Nat.ne_of_gt (Nat.zero_lt_of_lt enough))
      have ⟨begin, begins⟩ := List.forall_mem_cons.mp begins
      cases separated with
      | @part _ gap _ more _ before others =>
          have head := reads [] (more ++ 0x5D :: rest) .nil (others.endsValue (.inl rfl) rest)
          have tail := ih begins others fuel (Nat.lt_of_succ_lt_succ enough)
          rw [List.append_assoc, List.append_assoc, elements, before.nextElement begin]
          rw [List.nil_append] at head
          simp only [bind, Except.bind, head, tail]

theorem Reads.listOf {read : Reader α} {parts : List Bytes} {items : List α}
    (reads : List.Forall₂ (Reads read) parts items) (begins : ∀ part ∈ parts, Begins 0x5D part)
    {bytes : Bytes} (listed : ListOf parts bytes) : Reads (Json.list read) bytes items := by
  intro lead rest leads _
  obtain ⟨separated⟩ := listed
  rename_i inside
  have few := separated.length_le fun part member => by
    obtain ⟨first, tail, shape, _⟩ := begins part member
    exact shape ▸ List.cons_ne_nil _ _
  have read := elements_separated reads begins separated ((inside ++ 0x5D :: rest).length + 1)
    (by simp only [List.length_append]; omega) rest
  rw [Json.list, value_lead _ leads, List.cons_append, List.append_assoc]
  change (elements _ _ true _ >>= _) = _
  simp only [List.singleton_append, read, bind, Except.bind]
  rfl

theorem Reads.list {read : Reader α} (write : β → Bytes) (value : β → α) (items : List β)
    (reads : ∀ item ∈ items, Reads read (write item) (value item))
    (opens : ∀ item ∈ items, Opens (write item)) {bytes : Bytes}
    (listed : ListOf (items.map write) bytes) : Reads (Json.list read) bytes (items.map value) := by
  refine .listOf ?_ (fun part member => ?_) listed
  · rw [List.forall₂_map_left_iff, List.forall₂_map_right_iff, List.forall₂_same]
    exact reads
  · obtain ⟨item, present, rfl⟩ := List.mem_map.mp member
    exact (opens item present).begins

/-! Records. -/

variable {φ δ : Type} {shape : Shape φ δ α}

/-- Members that fill a draft one after the other: each one is a field that was still open, or
passed over. -/
inductive Fills (shape : Shape φ δ α) : δ → List Member → δ → Prop
  | done (draft : δ) : Fills shape draft [] draft
  | unknown {draft last : δ} {member : Member} {members : List Member}
      (unknown : shape.field? member.name = none) (passes : Passes member.value)
      (others : Fills shape draft members last) : Fills shape draft (member :: members) last
  | field (field : φ) {draft next last : δ} {member : Member} {members : List Member}
      (known : shape.field? member.name = some field) (isOpen : shape.has field draft = false)
      (reads : Reads (shape.read field draft) member.value next)
      (others : Fills shape next members last) : Fills shape draft (member :: members) last

theorem Fills.set (field : φ) (write : δ → β → δ) {draft last : δ} {member : Member}
    {members : List Member} {read : Reader β} {b : β}
    (known : shape.field? member.name = some field) (isOpen : shape.has field draft = false)
    (way : shape.read field draft =
      fun rest => (read rest).map fun (b, rest) => (write draft b, rest))
    (reads : Reads read member.value b) (others : Fills shape (write draft b) members last) :
    Fills shape draft (member :: members) last :=
  .field field known isOpen (way ▸ reads.map (write draft)) others

def Entry.Named (entry : Entry) (name : String) : Prop :=
  ∀ rest, readText (entry.quoted ++ 0x22 :: rest) = .ok (name, rest)

theorem Member.named (member : Member) : member.entry.Named member.name := member.written.readText

inductive Shape.Takes (shape : Shape φ δ α) (entry : Entry) (draft : δ) : δ → Prop
  | unknown {name : String} (named : entry.Named name) (unknown : shape.field? name = none)
      (passes : Passes entry.value) : Takes shape entry draft draft
  | field {name : String} {field : φ} {next : δ} (named : entry.Named name)
      (known : shape.field? name = some field) (isOpen : shape.has field draft = false)
      (reads : Reads (shape.read field draft) entry.value next) : Takes shape entry draft next

theorem Shape.members_end (shape : Shape φ δ α) (first : Bool) {trail : Bytes}
    (trails : Blanks trail) (fuel : Nat) (draft : δ) (rest : Bytes) :
    shape.members (fuel + 1) first draft (trail ++ 0x7D :: rest) =
      .ok (shape.finish draft, 0x7D :: rest) := by
  rw [Shape.members, nextName_end first trails]
  rfl

theorem Shape.members_entry (shape : Shape φ δ α) {first : Bool} {gap : Bytes}
    (before : Gap first gap) {entry : Entry} {name : String} (named : entry.Named name) (fuel : Nat)
    (draft : δ) (rest : Bytes) :
    shape.members (fuel + 1) first draft (gap ++ (0x22 :: entry.bytes ++ rest)) =
      match shape.field? name with
      | none =>
          skipValue (entry.lead ++ (entry.value ++ rest)) >>= shape.members fuel false draft
      | some field =>
          if shape.has field draft then
            .ok (.error (.duplicateField (shape.name field)),
              entry.trail ++ 0x3A :: (entry.lead ++ (entry.value ++ rest)))
          else shape.read field draft (entry.lead ++ (entry.value ++ rest)) >>= fun read =>
            shape.members fuel false read.1 read.2 := by
  rw [List.cons_append, Shape.members, before.nextName, Entry.bytes]
  simp only [List.append_assoc, List.cons_append, bind, Except.bind, named _]
  cases shape.field? name with
  | none => simp only [colon_trail entry.trails]
  | some field => simp only [colon_trail entry.trails]

theorem Shape.Takes.members {entry : Entry} {draft next : δ} (takes : shape.Takes entry draft next)
    {first : Bool} {gap rest : Bytes} (before : Gap first gap) (ends : EndsValue rest) (fuel : Nat) :
    shape.members (fuel + 1) first draft (gap ++ (0x22 :: entry.bytes ++ rest)) =
      shape.members fuel false next rest := by
  cases takes with
  | unknown named unknown passes =>
      rw [shape.members_entry before named]
      simp only [unknown, passes entry.lead rest entry.leads ends, bind, Except.bind]
  | field named known isOpen reads =>
      rw [shape.members_entry before named]
      simp only [known, isOpen, Bool.false_eq_true, if_false,
        reads entry.lead rest entry.leads ends, bind, Except.bind]

theorem Shape.Takes.fills {member : Member} {members : List Member} {draft next last : δ}
    (takes : shape.Takes member.entry draft next) (others : Fills shape next members last) :
    Fills shape draft (member :: members) last := by
  have same {name : String} (named : member.entry.Named name) : name = member.name :=
    (Prod.mk.inj (Except.ok.inj ((named []).symm.trans (member.named [])))).1
  cases takes with
  | unknown named unknown passes => exact .unknown (same named ▸ unknown) passes others
  | @field name field next named known isOpen reads =>
      exact .field field (same named ▸ known) isOpen reads others

theorem members_separated {draft last : δ} {members : List Member}
    (fills : Fills shape draft members last) {first : Bool} {inside : Bytes}
    (separated : Separated first (members.map fun member => 0x22 :: member.bytes) inside)
    (fuel : Nat) (enough : members.length < fuel) (rest : Bytes) :
    shape.members fuel first draft (inside ++ 0x7D :: rest) =
      .ok (shape.finish last, 0x7D :: rest) := by
  induction fills generalizing fuel first inside with
  | done draft =>
      obtain ⟨fuel, rfl⟩ := Nat.exists_eq_succ_of_ne_zero (Nat.ne_of_gt enough)
      cases separated with
      | done trails => exact shape.members_end first trails fuel draft rest
  | @unknown draft last member members unknown passes _ ih =>
      obtain ⟨fuel, rfl⟩ := Nat.exists_eq_succ_of_ne_zero (Nat.ne_of_gt (Nat.zero_lt_of_lt enough))
      cases separated with
      | part before others =>
          have takes : shape.Takes member.entry draft draft := .unknown member.named unknown passes
          rw [List.append_assoc, List.append_assoc]
          exact (takes.members before (others.endsValue (.inr rfl) rest) fuel).trans
            (ih others fuel (Nat.lt_of_succ_lt_succ enough))
  | @field field draft next last member members known isOpen reads _ ih =>
      obtain ⟨fuel, rfl⟩ := Nat.exists_eq_succ_of_ne_zero (Nat.ne_of_gt (Nat.zero_lt_of_lt enough))
      cases separated with
      | part before others =>
          have takes : shape.Takes member.entry draft next := .field member.named known isOpen reads
          rw [List.append_assoc, List.append_assoc]
          exact (takes.members before (others.endsValue (.inr rfl) rest) fuel).trans
            (ih others fuel (Nat.lt_of_succ_lt_succ enough))

theorem Shape.record_object (shape : Shape φ δ α) {lead : Bytes} (leads : Blanks lead)
    (inside rest : Bytes) : shape.record (lead ++ (0x7B :: (inside ++ [0x7D]) ++ rest)) =
      shape.members ((inside ++ 0x7D :: rest).length + 1) true shape.blank (inside ++ 0x7D :: rest)
        >>= fun read => settle read.1 (closeObject read.2) := by
  rw [Shape.record, value_lead _ leads, List.cons_append, List.append_assoc]
  rfl

theorem Reads.record {members : List Member} {last : δ} {a : α}
    (fills : Fills shape shape.blank members last) (finished : shape.finish last = .ok a)
    {bytes : Bytes} (listed : ObjectOf members bytes) : Reads shape.record bytes a := by
  intro lead rest leads _
  obtain ⟨separated⟩ := listed
  rename_i inside
  have parts := separated.length_le fun part member => by
    obtain ⟨_, _, rfl⟩ := List.mem_map.mp member
    exact List.cons_ne_nil _ _
  rw [List.length_map] at parts
  have read := members_separated fills separated ((inside ++ 0x7D :: rest).length + 1)
    (by simp only [List.length_append]; omega) rest
  rw [shape.record_object leads]
  simp only [read, bind, Except.bind, finished]
  rfl

end CrawlBoard.Json
