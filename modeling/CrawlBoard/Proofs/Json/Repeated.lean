import CrawlBoard.Proofs.Json.Restating

namespace CrawlBoard.Json

open Utf8 (Bytes)
open scoped List

variable {α β φ δ : Type}

inductive ElementRepeats (repeats : Bytes → Prop) : Bytes → Prop
  | list {parts : List Bytes} {part bytes : Bytes} (values : ∀ part ∈ parts, WellFormed part)
      (listed : ListOf parts bytes) (present : part ∈ parts) (inside : repeats part) :
      ElementRepeats repeats bytes

/-- Some field is given twice: by two members, or inside the value of a field. -/
inductive Shape.Repeats (shape : Shape φ δ α) (inner : φ → Bytes → Prop) : Bytes → Prop
  | members {field : φ} {first second : Member} {members others : List Member} {bytes : Bytes}
      (values : ∀ member ∈ members, WellFormed member.value) (listed : ObjectOf members bytes)
      (found : members ~ first :: second :: others)
      (known : shape.field? first.name = some field) (knownToo : shape.field? second.name = some field) :
      Repeats shape inner bytes
  | value {field : φ} {member : Member} {members : List Member} {bytes : Bytes}
      (values : ∀ member ∈ members, WellFormed member.value) (listed : ObjectOf members bytes)
      (present : member ∈ members) (known : shape.field? member.name = some field)
      (inside : inner field member.value) : Repeats shape inner bytes
  | place {field : φ} {parts : List Bytes} {part bytes : Bytes}
      (values : ∀ part ∈ parts, WellFormed part) (listed : ListOf parts bytes)
      (present : (field, part) ∈ shape.fields.zip parts) (inside : inner field part) :
      Repeats shape inner bytes

theorem exists_of_forall₂ {r : Bytes → α → Prop} {parts : List Bytes} {items : List α}
    (related : List.Forall₂ r parts items) {part : Bytes} (present : part ∈ parts) :
    ∃ item, r part item := by
  induction related with
  | nil => cases present
  | @cons _ item _ _ first _ ih =>
      rcases List.mem_cons.mp present with rfl | later
      · exact ⟨item, first⟩
      · exact ih later

/-- Nothing is read of such texts. -/
structure Refuses (read : Reader α) (repeats : Bytes → Prop) : Prop where
  wellFormed {bytes : Bytes} (repeated : repeats bytes) : WellFormed bytes
  opens {bytes : Bytes} (repeated : repeats bytes) : Opens bytes
  refuses {bytes : Bytes} (repeated : repeats bytes) (a : α) : ¬ Reads read bytes a

namespace Refuses

variable {read : Reader α} {repeats : Bytes → Prop}

theorem none (read : Reader α) : Refuses read fun _ => False :=
  ⟨False.elim, False.elim, fun repeated => repeated.elim⟩

theorem map (refuses : Refuses read repeats) (steady : Steady read) (f : α → β) :
    Refuses (fun rest => (read rest).map fun (a, rest) => (f a, rest)) repeats where
  wellFormed := refuses.wellFormed
  opens := refuses.opens
  refuses repeated b given := by
    obtain ⟨a, inner, _⟩ := steady.of_reads (refuses.wellFormed repeated) f given
    exact refuses.refuses repeated a inner

theorem optional (refuses : Refuses read repeats) (steady : Steady read) :
    Refuses (Json.optional read) repeats where
  wellFormed := refuses.wellFormed
  opens := refuses.opens
  refuses repeated _ given := by
    obtain ⟨a, _, inner⟩ :=
      (refuses.opens repeated).of_optional steady (refuses.wellFormed repeated) given
    exact refuses.refuses repeated a inner

theorem list (refuses : Refuses read repeats) (steady : Steady read) :
    Refuses (Json.list read) (ElementRepeats repeats) where
  wellFormed := fun ⟨values, listed, _, _⟩ => .list values listed
  opens := fun ⟨_, listed, _, _⟩ => opens_listOf listed
  refuses := by
    rintro _ ⟨values, listed, present, inside⟩ items given
    have parts := given.elements steady values listed
    obtain ⟨item, reads⟩ := exists_of_forall₂ parts present
    exact refuses.refuses inside item reads

end Refuses

variable {shape : Shape φ δ α}

theorem Shape.Places.reads_of_zip {left : List φ} {draft last : δ} {parts : List Bytes}
    (places : shape.Places left draft parts last) {field : φ} {part : Bytes}
    (present : (field, part) ∈ left.zip parts) :
    ∃ draft next, Reads (shape.read field draft) part next := by
  induction places with
  | done => simp at present
  | @next head left draft next last part parts reads _ ih =>
      rcases List.mem_cons.mp present with same | later
      · cases same
        exact ⟨draft, next, reads⟩
      · exact ih later

variable [DecidableEq φ]

namespace Shape.Fields

variable {fields : shape.Fields}

theorem Gives.reads_of_mem {members : List Member} {given : List fields.Given}
    (gives : fields.Gives members given) {member : Member} (present : member ∈ members) {field : φ}
    (known : shape.field? member.name = some field) :
    ∃ content, Reads (fields.content field) member.value content := by
  induction gives with
  | nil => cases present
  | cons first _ ih =>
      rcases List.mem_cons.mp present with rfl | later
      · obtain ⟨content, _, reads⟩ := first.of_known known
        exact ⟨content, reads⟩
      · exact ih later

variable {inner : φ → Bytes → Prop}

theorem refuses_record (steady : ∀ field, Steady (fields.content field))
    (refuses : ∀ field, Refuses (fields.content field) (inner field)) :
    Refuses shape.record (shape.Repeats inner) where
  wellFormed repeated := by
    cases repeated with
    | members values listed | value values listed => exact .members values listed
    | place values listed => exact .list values listed
  opens repeated := by
    cases repeated with
    | members _ listed | value _ listed => exact opens_objectOf listed
    | place _ listed => exact opens_listOf listed
  refuses repeated a given := by
    cases repeated with
    | members values listed found known knownToo =>
        -- The two members may be moved to the front, where they give one field twice.
        obtain ⟨parts, gives, distinct, _⟩ := makes_of_reads steady values listed given
        obtain ⟨moved, same, gives⟩ := gives.perm found
        obtain _ | ⟨first, _ | ⟨second, _⟩⟩ := gives
        obtain ⟨_, rfl, _⟩ := first.of_known known
        obtain ⟨_, rfl, _⟩ := second.of_known knownToo
        have distinct := (same.map Sigma.fst).nodup_iff.mpr distinct
        exact (List.nodup_cons.mp distinct).1 List.mem_cons_self
    | value values listed present known inside =>
        obtain ⟨parts, gives, _⟩ := makes_of_reads steady values listed given
        obtain ⟨content, reads⟩ := gives.reads_of_mem present known
        exact (refuses _).refuses inside content reads
    | @place field _ _ _ values listed present inside =>
        have shown := given [] [] .nil fun _ found => nomatch found
        obtain ⟨last, places, _⟩ :=
          places_of_record (steady_read steady) values listed .nil shown
        obtain ⟨draft, next, reads⟩ := places.reads_of_zip present
        rw [fields.read_eq] at reads
        exact ((refuses field).map (steady field) fun given =>
          fields.put field given draft).refuses inside next reads

end Shape.Fields

end CrawlBoard.Json
