import CrawlBoard.Text.Search

namespace CrawlBoard.Search

/-- The items of a list are tried one by one, also where all values of their type could be. -/
instance (priority := high) decidableForallMem {α : Type} (items : List α) (holds : α → Prop)
    [DecidablePred holds] : Decidable (∀ item ∈ items, holds item) :=
  List.decidableBAll holds items

variable {α : Type} [BEq α] {needle : List α} {item : α} {rest : List α}

theorem cut?_of_begins (begins : needle.isPrefixOf (item :: rest) = true) :
    cut? needle (item :: rest) = some ([], (item :: rest).drop needle.length) := by
  simp [cut?, indexOf?, begins]

theorem cut?_of_other (begins : needle.isPrefixOf (item :: rest) = false) :
    cut? needle (item :: rest) =
      (cut? needle rest).map fun (front, back) => (item :: front, back) := by
  unfold cut?
  rw [indexOf?, begins, if_neg Bool.false_ne_true]
  cases indexOf? needle rest with
  | none => rfl
  | some offset =>
      simp only [Option.map_some, List.take_succ_cons]
      rw [Nat.add_right_comm, List.drop_succ_cons]

theorem eq_append_of_cut? [LawfulBEq α] {items front back : List α}
    (cut : cut? needle items = some (front, back)) : items = front ++ (needle ++ back) := by
  induction items generalizing front with
  | nil =>
      unfold cut? indexOf? at cut
      split at cut
      · rename_i empty
        cases cut
        simpa using empty
      · cases cut
  | cons item rest ih =>
      cases begins : needle.isPrefixOf (item :: rest) with
      | true =>
          rw [cut?_of_begins begins] at cut
          cases cut
          obtain ⟨after, shape⟩ := List.isPrefixOf_iff_prefix.mp begins
          rw [← shape, List.drop_left, List.nil_append]
      | false =>
          rw [cut?_of_other begins] at cut
          obtain ⟨⟨before, after⟩, found, same⟩ := Option.map_eq_some_iff.mp cut
          cases same
          rw [ih found, List.cons_append]

theorem le_of_indexOf? {items : List α} {offset : Nat} (found : indexOf? needle items = some offset) :
    offset ≤ items.length := by
  induction items generalizing offset with
  | nil =>
      unfold indexOf? at found
      split at found <;> cases found
      exact Nat.zero_le _
  | cons item rest ih =>
      unfold indexOf? at found
      split at found
      · cases found
        exact Nat.zero_le _
      · obtain ⟨before, foundBefore, rfl⟩ := Option.map_eq_some_iff.mp found
        exact Nat.succ_le_succ (ih foundBefore)

theorem length_take_of_indexOf? {items : List α} {offset : Nat}
    (found : indexOf? needle items = some offset) : (items.take offset).length = offset :=
  List.length_take_of_le (le_of_indexOf? found)

variable [LawfulBEq α]

theorem cut?_append {first : α} {needle front : List α} (missing : first ∉ front) (rest : List α) :
    cut? (first :: needle) (front ++ rest) =
      (cut? (first :: needle) rest).map fun (before, after) => (front ++ before, after) := by
  induction front with
  | nil => simp
  | cons item front ih =>
      have other : (first == item) = false := by
        simpa using fun same : first = item => missing (same ▸ List.mem_cons_self)
      rw [List.cons_append, cut?_of_other (by simp [List.isPrefixOf, other]),
        ih fun member => missing (List.mem_cons_of_mem _ member), Option.map_map]
      rfl

theorem cut?_singleton {first : α} {front : List α} (missing : first ∉ front) (rest : List α) :
    cut? [first] (front ++ first :: rest) = some (front, rest) := by
  rw [cut?_append missing, cut?_of_begins (by simp [List.isPrefixOf])]
  simp

theorem isSome_indexOf?_singleton (first : α) (items : List α) :
    (indexOf? [first] items).isSome = true ↔ first ∈ items := by
  induction items with
  | nil => simp [indexOf?]
  | cons item rest ih =>
      unfold indexOf?
      split
      · rename_i begins
        simp only [List.isPrefixOf, Bool.and_true, beq_iff_eq] at begins
        simp [begins]
      · rename_i other
        simp only [List.isPrefixOf, Bool.and_true, beq_iff_eq] at other
        simp [ih, other]

theorem indexOf?_singleton_eq_none_iff (first : α) (items : List α) :
    indexOf? [first] items = none ↔ first ∉ items := by
  rw [← Option.not_isSome_iff_eq_none, isSome_indexOf?_singleton]

theorem cut?_of_not_mem {first : α} {items : List α} (missing : first ∉ items) :
    cut? [first] items = none := by
  rw [cut?, (indexOf?_singleton_eq_none_iff first items).mpr missing, Option.map_none]

theorem not_mem_of_cut? {first : α} {items front back : List α}
    (cut : cut? [first] items = some (front, back)) : first ∉ front := by
  intro member
  obtain ⟨before, after, rfl, missing⟩ := List.eq_append_cons_of_mem member
  have earlier := cut?_singleton missing (after ++ first :: back)
  have shape : items = before ++ first :: (after ++ first :: back) := by
    simpa using eq_append_of_cut? cut
  rw [← shape, cut] at earlier
  simp at earlier

theorem contains_append (needle front rest : List α) :
    contains needle (front ++ (needle ++ rest)) = true := by
  unfold contains
  induction front with
  | nil =>
      cases shape : needle ++ rest with
      | nil =>
          obtain ⟨rfl, -⟩ := List.append_eq_nil_iff.mp shape
          rfl
      | cons item items =>
          have begins : needle.isPrefixOf (item :: items) = true :=
            List.isPrefixOf_iff_prefix.mpr ⟨rest, shape⟩
          simp [indexOf?, begins]
  | cons item front ih =>
      rw [List.cons_append, indexOf?]
      split
      · rfl
      · rwa [Option.isSome_map]

theorem splitOn_eq {α : Type} [BEq α] (separator : α) (items : List α) :
    splitOn separator items = List.splitOn separator items := by
  induction items with
  | nil => rfl
  | cons item rest ih =>
      rw [splitOn, List.splitOn_cons_eq_if_modifyHead, ih]
      split
      · rfl
      · cases shape : List.splitOn separator rest with
        | nil => exact absurd shape (List.splitOn_ne_nil separator rest)
        | cons piece pieces => rfl

theorem splitOn_intercalate {separator : α} {pieces : List (List α)}
    (apart : ∀ piece ∈ pieces, separator ∉ piece) (given : pieces ≠ []) :
    splitOn separator ([separator].intercalate pieces) = pieces := by
  rw [splitOn_eq, List.splitOn_intercalate separator apart given]

theorem splitOn_joined {glue : String} {separator : Char} (single : glue.toList = [separator])
    {texts : List String} (apart : ∀ text ∈ texts, separator ∉ text.toList) (given : texts ≠ []) :
    splitOn separator (glue.intercalate texts).toList = texts.map String.toList := by
  rw [String.toList_intercalate, single]
  apply splitOn_intercalate
  · intro piece present
    obtain ⟨text, member, rfl⟩ := List.mem_map.mp present
    exact apart text member
  · simpa using given

theorem intercalate_splitOn (separator : α) (items : List α) :
    [separator].intercalate (splitOn separator items) = items := by
  rw [splitOn_eq, List.intercalate_splitOn]

omit [BEq α] [LawfulBEq α] in
theorem mem_intercalate {between : List α} {pieces : List (List α)} {item : α}
    (member : item ∈ between.intercalate pieces) :
    item ∈ between ∨ ∃ piece ∈ pieces, item ∈ piece := by
  induction pieces with
  | nil => cases member
  | cons piece pieces ih =>
      have later (inside : item ∈ between.intercalate pieces) :
          item ∈ between ∨ ∃ other ∈ piece :: pieces, item ∈ other :=
        (ih inside).imp_right fun ⟨other, present, within⟩ =>
          ⟨other, List.mem_cons_of_mem _ present, within⟩
      cases pieces with
      | nil =>
          rw [List.intercalate_singleton] at member
          exact .inr ⟨piece, List.mem_cons_self, member⟩
      | cons next pieces =>
          rw [List.intercalate_cons_cons, List.mem_append, List.mem_append] at member
          rcases member with (inside | inside) | inside
          · exact .inr ⟨piece, List.mem_cons_self, inside⟩
          · exact .inl inside
          · exact later inside

omit [BEq α] [LawfulBEq α] in
theorem subset_intercalate {between piece : List α} {pieces : List (List α)}
    (present : piece ∈ pieces) : piece ⊆ between.intercalate pieces := by
  intro item member
  induction pieces with
  | nil => cases present
  | cons first pieces ih =>
      cases pieces with
      | nil =>
          rw [List.intercalate_singleton]
          exact List.mem_singleton.mp present ▸ member
      | cons next pieces =>
          rw [List.intercalate_cons_cons]
          rcases List.mem_cons.mp present with rfl | later
          · exact List.mem_append_left _ (List.mem_append_left _ member)
          · exact List.mem_append_right _ (ih later)

omit [LawfulBEq α] in
theorem splitOn_ne_nil (separator : α) (items : List α) : splitOn separator items ≠ [] := by
  rw [splitOn_eq]
  exact List.splitOn_ne_nil separator items

theorem length_splitOn (separator : α) (items : List α) :
    (splitOn separator items).length = items.count separator + 1 := by
  induction items with
  | nil => rfl
  | cons item rest ih =>
      unfold splitOn
      split
      · rename_i same
        rw [eq_of_beq same, List.length_cons, ih, List.count_cons_self]
      · rename_i other
        rw [List.count_cons_of_ne (by simpa using other), ← ih]
        split
        · rename_i none
          exact absurd none (splitOn_ne_nil separator rest)
        · rename_i shape
          rw [shape]
          rfl

theorem splitOn_append (separator : α) (front back : List α) :
    splitOn separator (front ++ separator :: back) =
      splitOn separator front ++ splitOn separator back := by
  rw [splitOn_eq, splitOn_eq, splitOn_eq, List.splitOn_append_cons_self]

omit [BEq α] [LawfulBEq α] in
theorem mapM_map_of_inverse {β : Type} {write : α → β} {read? : β → Option α} (items : List α)
    (inverse : ∀ item ∈ items, read? (write item) = some item) :
    (items.map write).mapM read? = some items := by
  induction items with
  | nil => rfl
  | cons item items ih =>
      have rest := ih fun other member => inverse other (List.mem_cons_of_mem _ member)
      simp [inverse item List.mem_cons_self, rest]

theorem splitOn_of_not_mem {separator : α} {items : List α} (missing : separator ∉ items) :
    splitOn separator items = [items] := by
  rw [splitOn_eq, List.splitOn_eq_singleton missing]

omit [BEq α] [LawfulBEq α] in
theorem exists_last {item : α} {items : List α} (member : item ∈ items) :
    ∃ front last, items = front ++ item :: last ∧ item ∉ last := by
  obtain ⟨last, front, shape, missing⟩ := List.eq_append_cons_of_mem (List.mem_reverse.mpr member)
  refine ⟨front.reverse, last.reverse, ?_, by rwa [List.mem_reverse]⟩
  rw [← List.reverse_reverse items, shape]
  simp

omit [BEq α] [LawfulBEq α] in
theorem dropWhile_of_head {drop : α → Bool} {items : List α}
    (kept : ∀ first ∈ items.head?, drop first = false) : items.dropWhile drop = items := by
  cases items with
  | nil => rfl
  | cons first rest => exact List.dropWhile_cons_of_neg (by simp [kept first rfl])

omit [BEq α] [LawfulBEq α] in
theorem dropTrailing_append {drop : α → Bool} {front : List α}
    (kept : ∀ last ∈ front.getLast?, drop last = false) (back : List α) :
    dropTrailing drop (front ++ back) = front ++ dropTrailing drop back := by
  have whole : front.reverse.dropWhile drop = front.reverse :=
    dropWhile_of_head (by rwa [List.head?_reverse])
  unfold dropTrailing
  rw [List.reverse_append, List.dropWhile_append]
  split
  · rename_i all
    rw [whole, List.reverse_reverse, List.isEmpty_iff.mp all, List.reverse_nil, List.append_nil]
  · rw [List.reverse_append, List.reverse_reverse]

omit [BEq α] [LawfulBEq α] in
theorem dropTrailing_subset (drop : α → Bool) (items : List α) : dropTrailing drop items ⊆ items := by
  intro item member
  exact List.mem_reverse.mp ((List.dropWhile_sublist _).subset (List.mem_reverse.mp member))

omit [BEq α] [LawfulBEq α] in
theorem dropTrailing_eq_nil_iff (drop : α → Bool) (items : List α) :
    dropTrailing drop items = [] ↔ ∀ item ∈ items, drop item = true := by
  rw [dropTrailing, List.reverse_eq_nil_iff]
  constructor
  · intro none item member
    have whole : items.reverse.takeWhile drop ++ items.reverse.dropWhile drop = items.reverse :=
      List.takeWhile_append_dropWhile
    rw [none, List.append_nil] at whole
    have all : (items.reverse.takeWhile drop).all drop = true := List.all_takeWhile
    rw [whole] at all
    exact List.all_eq_true.mp all item (List.mem_reverse.mpr member)
  · intro all
    have dropped : (items.reverse ++ []).dropWhile drop = ([] : List α).dropWhile drop :=
      List.dropWhile_append_of_pos fun item member => all item (List.mem_reverse.mp member)
    rwa [List.append_nil] at dropped

omit [BEq α] [LawfulBEq α] in
theorem dropTrailing_concat {drop : α → Bool} {last : α} (dropped : drop last = true)
    (front : List α) : dropTrailing drop (front ++ [last]) = dropTrailing drop front := by
  rw [dropTrailing, List.reverse_concat, List.dropWhile_cons_of_pos dropped, dropTrailing]

omit [BEq α] [LawfulBEq α] in
theorem dropTrailing_of_last {drop : α → Bool} {items : List α}
    (kept : ∀ last ∈ items.getLast?, drop last = false) : dropTrailing drop items = items := by
  simpa [dropTrailing] using dropTrailing_append kept []

end CrawlBoard.Search
