
namespace CrawlBoard.Lookup

variable {κ α : Type} [BEq κ] [LawfulBEq κ]

theorem lookup_cons_eq_ite [DecidableEq κ] (key other : κ) (value : α) (rest : List (κ × α)) :
    List.lookup key ((other, value) :: rest) =
      if key = other then some value else rest.lookup key := by
  by_cases same : key = other
  · simp [same]
  · have differs : (key == other) = false := beq_eq_false_iff_ne.mpr same
    simp [List.lookup_cons, differs, same]

theorem lookup_map_snd [DecidableEq κ] (key : κ) (change : κ → α → α)
    (entries : List (κ × α)) :
    (entries.map fun entry => (entry.1, change entry.1 entry.2)).lookup key =
      (entries.lookup key).map (change key) := by
  induction entries with
  | nil => rfl
  | cons head tail ih =>
      obtain ⟨other, value⟩ := head
      simp only [List.map_cons, lookup_cons_eq_ite, ih]
      by_cases same : key = other <;> simp [same]

theorem lookup_isSome_iff_mem (key : κ) (entries : List (κ × α)) :
    (entries.lookup key).isSome ↔ key ∈ entries.map (·.1) := by
  rw [List.lookup_isSome_iff, List.mem_map]
  constructor
  · rintro ⟨entry, member, same⟩
    exact ⟨entry, member, (eq_of_beq same).symm⟩
  · rintro ⟨entry, member, rfl⟩
    exact ⟨entry, member, beq_self_eq_true _⟩

theorem mem_of_lookup_eq_some {key : κ} {value : α} {entries : List (κ × α)}
    (found : entries.lookup key = some value) : (key, value) ∈ entries := by
  obtain ⟨before, after, rfl, _⟩ := List.lookup_eq_some_iff.mp found
  exact List.mem_append_right before List.mem_cons_self

theorem lookup_eq_some_of_mem {key : κ} {value : α} {entries : List (κ × α)}
    (distinct : (entries.map (·.1)).Nodup) (member : (key, value) ∈ entries) :
    entries.lookup key = some value := by
  obtain ⟨before, after, rfl⟩ := List.append_of_mem member
  refine List.lookup_eq_some_iff.mpr ⟨before, after, rfl, ?_⟩
  intro entry present
  rw [List.map_append, List.map_cons] at distinct
  have different : entry.1 ≠ key :=
    (List.nodup_append.mp distinct).2.2 entry.1 (List.mem_map.mpr ⟨entry, present, rfl⟩)
      key List.mem_cons_self
  exact bne_iff_ne.mpr (Ne.symm different)

end CrawlBoard.Lookup
