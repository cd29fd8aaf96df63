import CrawlBoard.Proofs.Json.Fields
import CrawlBoard.Proofs.Json.SteadyRecord
/-!
Other texts of the same record. Members may be moved and renamed, members with unknown names may
come and go, and a field that is `null` or absent may be left out or given as `null`. A field that
is given twice is refused wherever it stands.
-/

namespace CrawlBoard.Json

open Utf8 (Bytes)
open scoped List

variable {α β φ δ : Type}

inductive ChangesOne (step : Bytes → Bytes → Prop) : List Bytes → List Bytes → Prop
  | head {part other : Bytes} {parts : List Bytes} (change : step part other) :
      ChangesOne step (part :: parts) (other :: parts)
  | tail {part : Bytes} {parts others : List Bytes} (change : ChangesOne step parts others) :
      ChangesOne step (part :: parts) (part :: others)

inductive ElementStep (step : Bytes → Bytes → Prop) : Bytes → Bytes → Prop
  | list {parts others : List Bytes} {bytes restated : Bytes}
      (values : ∀ part ∈ parts, WellFormed part) (listed : ListOf parts bytes)
      (change : ChangesOne step parts others) (listedToo : ListOf others restated) :
      ElementStep step bytes restated

/-- One change of an object's members. The values of fields are changed by steps of their own, and
`spare` fields may be `null` or left out. -/
inductive Shape.MembersStep (shape : Shape φ δ α) (inner : φ → Bytes → Bytes → Prop)
    (spare : φ → Prop) : List Member → List Member → Prop
  | move {members moved : List Member} (perm : members ~ moved) :
      MembersStep shape inner spare members moved
  | rename {field : φ} {member other : Member} {members : List Member}
      (known : shape.field? member.name = some field) (knownToo : shape.field? other.name = some field)
      (same : other.value = member.value) :
      MembersStep shape inner spare (member :: members) (other :: members)
  | change {field : φ} {member other : Member} {members : List Member}
      (known : shape.field? member.name = some field) (knownToo : shape.field? other.name = some field)
      (change : inner field member.value other.value) :
      MembersStep shape inner spare (member :: members) (other :: members)
  | add {member : Member} {members : List Member} (unknown : shape.field? member.name = none)
      (value : WellFormed member.value) : MembersStep shape inner spare members (member :: members)
  | remove {member : Member} {members : List Member} (unknown : shape.field? member.name = none) :
      MembersStep shape inner spare (member :: members) members
  | addNull {field : φ} {member : Member} {members : List Member}
      (known : shape.field? member.name = some field) (isSpare : spare field)
      (isNull : member.value = nullBytes)
      (absent : ∀ other ∈ members, shape.field? other.name ≠ some field) :
      MembersStep shape inner spare members (member :: members)
  | removeNull {field : φ} {member : Member} {members : List Member}
      (known : shape.field? member.name = some field) (isSpare : spare field)
      (isNull : member.value = nullBytes) :
      MembersStep shape inner spare (member :: members) members

inductive PlaceStep (inner : φ → Bytes → Bytes → Prop) : List φ → List Bytes → List Bytes → Prop
  | head {field : φ} {left : List φ} {part other : Bytes} {parts : List Bytes}
      (change : inner field part other) : PlaceStep inner (field :: left) (part :: parts) (other :: parts)
  | tail {field : φ} {left : List φ} {part : Bytes} {parts others : List Bytes}
      (change : PlaceStep inner left parts others) :
      PlaceStep inner (field :: left) (part :: parts) (part :: others)

/-- One change of a record's text, whatever the layout before and after. -/
inductive Shape.Step (shape : Shape φ δ α) (inner : φ → Bytes → Bytes → Prop) (spare : φ → Prop) :
    Bytes → Bytes → Prop
  | object {members others : List Member} {bytes restated : Bytes}
      (values : ∀ member ∈ members, WellFormed member.value) (listed : ObjectOf members bytes)
      (change : shape.MembersStep inner spare members others) (listedToo : ObjectOf others restated) :
      Step shape inner spare bytes restated
  | list {parts others : List Bytes} {bytes restated : Bytes}
      (values : ∀ part ∈ parts, WellFormed part) (listed : ListOf parts bytes)
      (change : PlaceStep inner shape.fields parts others) (listedToo : ListOf others restated) :
      Step shape inner spare bytes restated

/-- Texts that a step leads to are read as the text that it starts from. -/
structure Keeps (read : Reader α) (step : Bytes → Bytes → Prop) : Prop where
  wellFormed {bytes restated : Bytes} (change : step bytes restated) : WellFormed bytes
  opens {bytes restated : Bytes} (change : step bytes restated) : Opens bytes ∧ Opens restated
  reads {bytes restated : Bytes} {a : α} (change : step bytes restated)
    (given : Reads read bytes a) : Reads read restated a

namespace Keeps

variable {read : Reader α} {step : Bytes → Bytes → Prop}

theorem none (read : Reader α) : Keeps read fun _ _ => False :=
  ⟨False.elim, False.elim, fun change => change.elim⟩

theorem map (keeps : Keeps read step) (steady : Steady read) (f : α → β) :
    Keeps (fun rest => (read rest).map fun (a, rest) => (f a, rest)) step where
  wellFormed := keeps.wellFormed
  opens := keeps.opens
  reads change given := by
    obtain ⟨a, inner, rfl⟩ := steady.of_reads (keeps.wellFormed change) f given
    exact (keeps.reads change inner).map f

end Keeps

theorem Opens.of_optional {read : Reader α} {bytes : Bytes} (opens : Opens bytes)
    (steady : Steady read) (wellFormed : WellFormed bytes) {given : Option α}
    (reads : Reads (optional read) bytes given) : ∃ a, given = some a ∧ Reads read bytes a := by
  have ends : EndsValue [] := fun _ found => nomatch found
  have whole := reads [] [] .nil ends
  obtain ⟨first, tail, rfl, notBlank, _, notNull⟩ := opens
  rw [List.cons_append, optional_shown read .nil notBlank notNull] at whole
  obtain ⟨⟨a, left⟩, shown, same⟩ := map_ok whole
  cases same
  exact ⟨a, rfl, steady wellFormed .nil ends shown⟩

section Steps

variable {read : Reader α} {step : Bytes → Bytes → Prop}

theorem Keeps.optional (keeps : Keeps read step) (steady : Steady read) :
    Keeps (Json.optional read) step where
  wellFormed := keeps.wellFormed
  opens := keeps.opens
  reads change given := by
    have ⟨opens, opensToo⟩ := keeps.opens change
    obtain ⟨a, rfl, inner⟩ := opens.of_optional steady (keeps.wellFormed change) given
    exact (keeps.reads change inner).optional opensToo

theorem ChangesOne.reads (keeps : Keeps read step) {parts others : List Bytes}
    (change : ChangesOne step parts others) {items : List α}
    (given : List.Forall₂ (Reads read) parts items) : List.Forall₂ (Reads read) others items := by
  induction change generalizing items with
  | head change =>
      obtain _ | ⟨first, rest⟩ := given
      exact .cons (keeps.reads change first) rest
  | tail _ ih =>
      obtain _ | ⟨first, rest⟩ := given
      exact .cons first (ih rest)

theorem ChangesOne.begins (keeps : Keeps read step) {parts others : List Bytes}
    (change : ChangesOne step parts others) (begins : ∀ part ∈ parts, Begins 0x5D part) :
    ∀ part ∈ others, Begins 0x5D part := by
  induction change with
  | head change =>
      have ⟨_, rest⟩ := List.forall_mem_cons.mp begins
      exact List.forall_mem_cons.mpr ⟨(keeps.opens change).2.begins, rest⟩
  | tail _ ih =>
      have ⟨first, rest⟩ := List.forall_mem_cons.mp begins
      exact List.forall_mem_cons.mpr ⟨first, ih rest⟩

theorem Keeps.list (keeps : Keeps read step) (steady : Steady read) :
    Keeps (Json.list read) (ElementStep step) where
  wellFormed := fun ⟨values, listed, _, _⟩ => .list values listed
  opens := fun ⟨_, listed, _, listedToo⟩ => ⟨opens_listOf listed, opens_listOf listedToo⟩
  reads := by
    rintro _ _ items ⟨values, listed, change, listedToo⟩ given
    have parts := given.elements steady values listed
    have begins := change.begins keeps fun part present => (values part present).begins
    exact .listOf (change.reads keeps parts) begins listedToo

end Steps

namespace Tree

theorem bytes_null : Tree.null.bytes = nullBytes := by
  rw [Tree.bytes, Tree.compact, Utf8.encode_eq_flatMap]
  rfl

theorem wellFormed_text (text : String) : WellFormed (Tree.text text).bytes :=
  (Value.text (Tree.quoted_text text)).wellFormed

theorem wellFormed_list {items : List Tree} (values : ∀ item ∈ items, WellFormed item.bytes) :
    WellFormed (Tree.list items).bytes :=
  .list (List.forall_mem_map.mpr values) (Tree.listOf items)

theorem wellFormed_object {members : List (String × Tree)}
    (values : ∀ member ∈ members, WellFormed member.2.bytes) : WellFormed (Tree.object members).bytes :=
  .members (List.forall_mem_map.mpr values) (Tree.objectOf members)

end Tree

theorem Shape.Step.compact {shape : Shape φ δ α} {inner : φ → Bytes → Bytes → Prop} {spare : φ → Prop}
    (members others : List (String × Tree)) (values : ∀ member ∈ members, WellFormed member.2.bytes)
    (change : shape.MembersStep inner spare (members.map Member.compact)
      (others.map Member.compact)) :
    shape.Step inner spare (Tree.object members).bytes (Tree.object others).bytes :=
  .object (List.forall_mem_map.mpr values) (Tree.objectOf members) change (Tree.objectOf others)

variable [DecidableEq φ] {shape : Shape φ δ α}

namespace Shape.Fields

variable (fields : shape.Fields)

/-- `null` is the same as nothing for the field. -/
def Spare (field : φ) : Prop :=
  ∃ content, Reads (fields.content field) nullBytes content ∧
    ∀ draft, shape.has field draft = false →
      shape.finish (fields.put field content draft) = shape.finish draft

/-- What members give makes up the record. -/
def Makes (members : List Member) (a : α) : Prop :=
  ∃ given, fields.Gives members given ∧ (given.map Sigma.fst).Nodup ∧
    shape.finish (fields.fill shape.blank given) = .ok a

variable {fields} {member : Member} {members : List Member} {parts given : List fields.Given}
  {field : φ}

theorem MemberGives.of_known (gives : fields.MemberGives member parts)
    (known : shape.field? member.name = some field) :
    ∃ content, parts = [⟨field, content⟩] ∧ Reads (fields.content field) member.value content := by
  cases gives with
  | unknown unknown => cases known.symm.trans unknown
  | field knownToo reads =>
      cases known.symm.trans knownToo
      exact ⟨_, rfl, reads⟩

theorem MemberGives.of_unknown (gives : fields.MemberGives member parts)
    (unknown : shape.field? member.name = none) : parts = [] := by
  cases gives with
  | unknown => rfl
  | field known => cases known.symm.trans unknown

theorem Gives.mem (gives : fields.Gives members given) (present : field ∈ given.map Sigma.fst) :
    ∃ member ∈ members, shape.field? member.name = some field := by
  induction gives with
  | nil => cases present
  | @cons member members parts given first _ ih =>
      rw [List.map_append, List.mem_append] at present
      rcases present with inFirst | later
      · cases first with
        | unknown => cases inFirst
        | field known =>
            obtain rfl := List.mem_singleton.mp inFirst
            exact ⟨member, List.mem_cons_self, known⟩
      · obtain ⟨other, found, known⟩ := ih later
        exact ⟨other, List.mem_cons_of_mem _ found, known⟩

theorem fill_put (absent : field ∉ given.map Sigma.fst) (content : fields.Content field) (draft : δ) :
    fields.fill (fields.put field content draft) given =
      fields.put field content (fields.fill draft given) := by
  induction given generalizing draft with
  | nil => rfl
  | cons part given ih =>
      rw [List.map_cons, List.mem_cons, not_or] at absent
      have other : part.1 ≠ field := fun same => absent.1 same.symm
      rw [fill, List.foldl_cons, fields.put_comm other]
      exact ih absent.2 _

theorem has_fill (absent : field ∉ given.map Sigma.fst) (draft : δ) :
    shape.has field (fields.fill draft given) = shape.has field draft := by
  induction given generalizing draft with
  | nil => rfl
  | cons part given ih =>
      rw [List.map_cons, List.mem_cons, not_or] at absent
      rw [fill, List.foldl_cons]
      refine (ih absent.2 _).trans ?_
      rw [fields.has_put, decide_eq_false absent.1]
      rfl

theorem finish_null {content : fields.Content field}
    (spare : ∀ draft, shape.has field draft = false →
      shape.finish (fields.put field content draft) = shape.finish draft)
    (absent : field ∉ given.map Sigma.fst) :
    shape.finish (fields.fill shape.blank (⟨field, content⟩ :: given)) =
      shape.finish (fields.fill shape.blank given) := by
  rw [fill, List.foldl_cons]
  refine (congrArg shape.finish (fill_put absent content shape.blank)).trans (spare _ ?_)
  rw [has_fill absent, fields.open_blank]

theorem steady_read (steady : ∀ field, Steady (fields.content field)) (field : φ) (draft : δ) :
    Steady (shape.read field draft) := by
  rw [fields.read_eq]
  exact (steady field).map fun given => fields.put field given draft

theorem gives_of_fills (steady : ∀ field, Steady (fields.content field))
    (values : ∀ member ∈ members, WellFormed member.value) {draft last : δ}
    (fills : Fills shape draft members last) :
    ∃ given, fields.Gives members given ∧ (given.map Sigma.fst).Nodup ∧
      (∀ part ∈ given, shape.has part.1 draft = false) ∧ last = fields.fill draft given := by
  induction fills with
  | done draft => exact ⟨[], .nil, .nil, (fun _ present => nomatch present), rfl⟩
  | unknown unknown passes _ ih =>
      have ⟨_, values⟩ := List.forall_mem_cons.mp values
      obtain ⟨given, gives, distinct, isOpen, same⟩ := ih values
      exact ⟨given, .cons (.unknown unknown passes) gives, distinct, isOpen, same⟩
  | @field field draft next last member members known isOpen reads _ ih =>
      have ⟨value, values⟩ := List.forall_mem_cons.mp values
      obtain ⟨given, gives, distinct, others, rfl⟩ := ih values
      rw [fields.read_eq] at reads
      obtain ⟨content, inner, rfl⟩ :=
        (steady field).of_reads value (fun given => fields.put field given draft) reads
      simp only [fields.has_put, Bool.or_eq_false_iff, decide_eq_false_iff_not] at others
      have fresh : field ∉ given.map Sigma.fst := fun present => by
        obtain ⟨part, found, same⟩ := List.mem_map.mp present
        exact (others part found).1 same
      exact ⟨⟨field, content⟩ :: given, .cons (.field known inner) gives,
        List.nodup_cons.mpr ⟨fresh, distinct⟩,
        List.forall_mem_cons.mpr ⟨isOpen, fun part found => (others part found).2⟩, rfl⟩

theorem makes_of_reads (steady : ∀ field, Steady (fields.content field))
    (values : ∀ member ∈ members, WellFormed member.value) {bytes : Bytes}
    (listed : ObjectOf members bytes) {a : α} (reads : Reads shape.record bytes a) :
    fields.Makes members a := by
  obtain ⟨last, fills, finished⟩ := fills_of_record (steady_read steady) values listed reads
  obtain ⟨given, gives, distinct, _, rfl⟩ := gives_of_fills steady values fills
  exact ⟨given, gives, distinct, finished⟩

theorem Makes.reads {a : α} (makes : fields.Makes members a) {bytes : Bytes}
    (listed : ObjectOf members bytes) : Reads shape.record bytes a := by
  obtain ⟨given, gives, distinct, finished⟩ := makes
  exact .record (gives.fills distinct fun part _ => fields.open_blank part.1) finished listed

variable {inner : φ → Bytes → Bytes → Prop} {spare : φ → Prop}
  (keeps : ∀ field, Keeps (fields.content field) (inner field))
  (spares : ∀ field, spare field → fields.Spare field)

include keeps spares in
/-- No step changes the record that the members make up. -/
theorem Makes.step {a : α} (makes : fields.Makes members a) {others : List Member}
    (change : shape.MembersStep inner spare members others) : fields.Makes others a := by
  obtain ⟨given, gives, distinct, finished⟩ := makes
  -- What the members give is moved, kept, or changed by a field that says nothing.
  cases change with
  | move perm =>
      obtain ⟨more, moved, gives⟩ := gives.perm perm
      have distinctMore := (moved.map Sigma.fst).nodup_iff.mpr distinct
      exact ⟨more, gives, distinctMore, fill_perm distinctMore moved shape.blank ▸ finished⟩
  | rename known knownToo same =>
      obtain _ | ⟨first, rest⟩ := gives
      obtain ⟨content, rfl, reads⟩ := first.of_known known
      exact ⟨_, .cons (.field knownToo (same ▸ reads)) rest, distinct, finished⟩
  | change known knownToo change =>
      obtain _ | ⟨first, rest⟩ := gives
      obtain ⟨content, rfl, reads⟩ := first.of_known known
      exact ⟨_, .cons (.field knownToo ((keeps _).reads change reads)) rest, distinct, finished⟩
  | add unknown value =>
      exact ⟨given, .cons (.unknown unknown value.passes) gives, distinct, finished⟩
  | remove unknown =>
      obtain _ | ⟨first, rest⟩ := gives
      obtain rfl := first.of_unknown unknown
      exact ⟨_, rest, distinct, finished⟩
  | @addNull field member _ known isSpare isNull absent =>
      obtain ⟨content, reads, spare⟩ := spares field isSpare
      have fresh : field ∉ given.map Sigma.fst := fun present => by
        obtain ⟨other, found, knownToo⟩ := gives.mem present
        exact absent other found knownToo
      exact ⟨⟨field, content⟩ :: given, .cons (.field known (isNull ▸ reads)) gives,
        List.nodup_cons.mpr ⟨fresh, distinct⟩, (finish_null spare fresh).trans finished⟩
  | @removeNull field member _ known isSpare isNull =>
      obtain ⟨content, reads, spare⟩ := spares field isSpare
      obtain _ | ⟨first, rest⟩ := gives
      obtain ⟨given, rfl, readsToo⟩ := first.of_known known
      obtain rfl := (isNull ▸ readsToo).unique reads
      have ⟨fresh, distinct⟩ := List.nodup_cons.mp distinct
      exact ⟨_, rest, distinct, (finish_null spare fresh).symm.trans finished⟩

variable (steady : ∀ field, Steady (fields.content field))

include keeps in
theorem begins_place {left : List φ} {parts others : List Bytes}
    (change : PlaceStep inner left parts others) (begins : ∀ part ∈ parts, Begins 0x5D part) :
    ∀ part ∈ others, Begins 0x5D part := by
  induction change with
  | @head field _ _ _ _ change =>
      have ⟨_, rest⟩ := List.forall_mem_cons.mp begins
      exact List.forall_mem_cons.mpr ⟨((keeps field).opens change).2.begins, rest⟩
  | tail _ ih =>
      have ⟨first, rest⟩ := List.forall_mem_cons.mp begins
      exact List.forall_mem_cons.mpr ⟨first, ih rest⟩

include keeps steady in
theorem places_step {left : List φ} {parts others : List Bytes}
    (change : PlaceStep inner left parts others) {draft last : δ}
    (places : shape.Places left draft parts last) : shape.Places left draft others last := by
  induction change generalizing draft with
  | @head field left part other parts change =>
      obtain _ | ⟨reads, rest⟩ := places
      rw [fields.read_eq] at reads
      have kept := (keeps field).map (steady field) fun given => fields.put field given draft
      have readsToo := kept.reads change reads
      rw [← fields.read_eq] at readsToo
      exact .next readsToo rest
  | tail _ ih =>
      obtain _ | ⟨reads, rest⟩ := places
      exact .next reads (ih rest)

include keeps spares steady in
theorem keeps_record : Keeps shape.record (shape.Step inner spare) where
  wellFormed change := by
    cases change with
    | object values listed => exact .members values listed
    | list values listed => exact .list values listed
  opens change := by
    cases change with
    | object _ listed _ listedToo => exact ⟨opens_objectOf listed, opens_objectOf listedToo⟩
    | list _ listed _ listedToo => exact ⟨opens_listOf listed, opens_listOf listedToo⟩
  reads change given := by
    cases change with
    | object values listed change listedToo =>
        have makes := makes_of_reads steady values listed given
        exact (makes.step keeps spares change).reads listedToo
    | list values listed change listedToo =>
        have shown := given [] [] .nil fun _ found => nomatch found
        obtain ⟨last, places, finished⟩ :=
          places_of_record (steady_read steady) values listed .nil shown
        have begins := begins_place keeps change fun part present => (values part present).begins
        exact (places_step keeps steady change places).reads finished begins listedToo

end Shape.Fields

end CrawlBoard.Json
