import CrawlBoard.Proofs.Xml.Scan
/-!
The start tags of a text by their byte offsets: exactly the places where one stands are found, in
their order, and every part of the text that is looked at begins and ends between characters.
-/

namespace CrawlBoard.Xml

/-! Places of start tags. -/

section Places

variable {tag : List Char}

theorem startTag?_eq_some_iff {text inside after : List Char} :
    startTag? tag text = some (inside, after) ↔
      text = '<' :: (tag ++ (inside ++ '>' :: after)) ∧ '>' ∉ inside ∧
        (inside ++ ['>']).head?.any endsName = true := by
  have heads : (inside ++ '>' :: after).head? = (inside ++ ['>']).head? := by
    cases inside <;> rfl
  constructor
  · intro found
    have shape := eq_of_startTag? found
    subst shape
    have begins : tag.isPrefixOf (tag ++ (inside ++ '>' :: after)) = true :=
      List.isPrefixOf_iff_prefix.mpr (List.prefix_append tag _)
    rw [startTag?, List.drop_left, begins] at found
    split at found
    · rename_i ends
      exact ⟨rfl, Search.not_mem_of_cut? found, heads ▸ ends.2⟩
    · cases found
  · rintro ⟨rfl, missing, ends⟩
    have begins : tag.isPrefixOf (tag ++ (inside ++ '>' :: after)) = true :=
      List.isPrefixOf_iff_prefix.mpr (List.prefix_append tag _)
    rw [startTag?, List.drop_left, if_pos ⟨begins, heads ▸ ends⟩, Search.cut?_singleton missing]

theorem mem_openTagsFrom (free : '<' ∉ tag) {base : Nat} {text : List Char} {found : OpenTag} :
    found ∈ openTagsFrom tag base text ↔
      ∃ front inside after, text = front ++ '<' :: (tag ++ (inside ++ '>' :: after)) ∧
        '>' ∉ inside ∧ (inside ++ ['>']).head?.any endsName = true ∧
        found = ⟨base + front.length, base + front.length + tag.length + inside.length + 2⟩ := by
  -- A tag that does not begin with this character is one of the rest.
  induction text generalizing base with
  | nil =>
      rw [openTagsFrom_nil]
      simp
  | cons char rest ih =>
      rw [openTagsFrom_cons free, List.mem_append, ih]
      constructor
      · rintro (here | ⟨front, inside, after, rfl, missing, ends, rfl⟩)
        · obtain ⟨⟨inside, after⟩, begins, rfl⟩ := List.mem_map.mp here
          obtain ⟨shape, missing, ends⟩ := startTag?_eq_some_iff.mp (Option.mem_toList.mp begins)
          exact ⟨[], inside, after, shape, missing, ends, rfl⟩
        · refine ⟨char :: front, inside, after, rfl, missing, ends, ?_⟩
          simp only [List.length_cons, Nat.add_assoc, Nat.add_comm 1]
      · rintro ⟨front, inside, after, shape, missing, ends, rfl⟩
        cases front with
        | nil =>
            have begins := startTag?_eq_some_iff.mpr ⟨shape, missing, ends⟩
            rw [begins]
            exact .inl List.mem_cons_self
        | cons first front =>
            cases shape
            refine .inr ⟨front, inside, after, rfl, missing, ends, ?_⟩
            simp only [List.length_cons, Nat.add_assoc, Nat.add_comm 1]

theorem openTagsFrom_ordered (free : '<' ∉ tag) (base : Nat) (text : List Char) :
    (openTagsFrom tag base text).Pairwise fun earlier later => earlier.start < later.start := by
  induction text generalizing base with
  | nil =>
      rw [openTagsFrom_nil]
      exact .nil
  | cons char rest ih =>
      rw [openTagsFrom_cons free, List.pairwise_append]
      refine ⟨?_, ih _, ?_⟩
      · cases startTag? tag (char :: rest) with
        | none => exact .nil
        | some found => exact List.pairwise_singleton _ _
      · intro earlier here later further
        obtain ⟨found, -, rfl⟩ := List.mem_map.mp here
        obtain ⟨front, inside, after, -, -, -, rfl⟩ := (mem_openTagsFrom free).mp further
        exact Nat.lt_of_lt_of_le (Nat.lt_succ_self base) (Nat.le_add_right _ _)

end Places

/-! Byte offsets. -/

/-- The text behind a byte offset. Only where a character begins or the text ends is there one. -/
def Behind (text : String) (offset : Nat) (rest : String) : Prop :=
  ∃ front, text = front ++ rest ∧ offset = front.utf8ByteSize

/-- The part of a text between two byte offsets. -/
def Slice (text : String) (first last : Nat) (part : String) : Prop :=
  last = first + part.utf8ByteSize ∧ ∃ rest, Behind text first (part ++ rest)

def byteOffset (text : List Char) (offset : Nat) : Nat :=
  (String.ofList (text.take offset)).utf8ByteSize

def OpenTag.bytes (text : List Char) (tag : OpenTag) : Nat × Nat :=
  (byteOffset text tag.start, byteOffset text tag.content)

section Bytes

variable {text : List Char} {xml rest : String} {first last offset : Nat}

theorem Behind.isValid (behind : Behind xml offset rest) :
    (⟨offset⟩ : String.Pos.Raw).IsValid xml := by
  obtain ⟨front, shape, rfl⟩ := behind
  exact String.Pos.Raw.isValid_iff_exists_append.mpr ⟨front, rest, shape, rfl⟩

theorem behind_byteOffset (xml : String) (offset : Nat) :
    Behind xml (byteOffset xml.toList offset) (String.ofList (xml.toList.drop offset)) := by
  refine ⟨String.ofList (xml.toList.take offset), ?_, rfl⟩
  rw [← String.ofList_append, List.take_append_drop, String.ofList_toList]

theorem byteOffset_add (text : List Char) (first count : Nat) :
    byteOffset text (first + count) =
      byteOffset text first + (String.ofList ((text.drop first).take count)).utf8ByteSize := by
  rw [byteOffset, List.take_add, String.ofList_append, String.utf8ByteSize_append]
  rfl

theorem byteOffset_lt (less : first < last) (within : first < text.length) :
    byteOffset text first < byteOffset text last := by
  obtain ⟨count, rfl⟩ := Nat.exists_eq_add_of_lt less
  rw [Nat.add_assoc, byteOffset_add]
  refine Nat.lt_add_of_pos_right (Nat.pos_of_ne_zero fun none => ?_)
  have empty : (text.drop first).take (count + 1) = [] := by
    rwa [String.utf8ByteSize_eq_zero_iff, String.ofList_eq_empty_iff] at none
  have length := congrArg List.length empty
  simp only [List.length_take, List.length_drop, List.length_nil] at length
  omega

theorem slice_byteOffset (xml : String) (first count : Nat) :
    Slice xml (byteOffset xml.toList first) (byteOffset xml.toList (first + count))
      (String.ofList ((xml.toList.drop first).take count)) := by
  refine ⟨byteOffset_add _ _ _, String.ofList (xml.toList.drop (first + count)), ?_⟩
  rw [← String.ofList_append, ← List.drop_drop, List.take_append_drop]
  exact behind_byteOffset xml first

theorem byteOffset_of_take {part : List Char} (offset : Nat)
    (begins : part <+: text.drop offset) :
    byteOffset text (offset + part.length) =
      byteOffset text offset + (String.ofList part).utf8ByteSize := by
  rw [byteOffset_add, ← List.prefix_iff_eq_take.mp begins]

end Bytes

/-! Rounds of the scan. -/

/-- The first place behind an offset where the bracket and the name begin, and what stands behind
them. -/
def Meets (xml tag : String) (offset start : Nat) (after : String) : Prop :=
  ∃ skipped, Behind xml offset (skipped ++ ("<" ++ tag ++ after)) ∧
    start = offset + skipped.utf8ByteSize ∧
    Search.indexOf? ("<" ++ tag).toList (skipped ++ ("<" ++ tag ++ after)).toList =
      some skipped.length

/-- The scan from a byte offset on: how many rounds it takes, and what it finds. Every text that a
round looks at stands behind an offset. -/
inductive Rounds (xml tag : String) : Nat → Nat → List (Nat × Nat) → Prop
  | exhausted {offset : Nat} {rest : String} (behind : Behind xml offset rest)
      (missing : Search.indexOf? ("<" ++ tag).toList rest.toList = none) : Rounds xml tag offset 1 []
  | longerName {offset start count : Nat} {after : String} {found : List (Nat × Nat)}
      (meets : Meets xml tag offset start after)
      (goesOn : after.toList.head?.any endsName = false)
      (later : Rounds xml tag (start + ("<" ++ tag).utf8ByteSize) count found) :
      Rounds xml tag offset (count + 1) found
  | unclosed {offset start : Nat} {after : String} (meets : Meets xml tag offset start after)
      (ends : after.toList.head?.any endsName = true) (unclosed : '>' ∉ after.toList) :
      Rounds xml tag offset 1 []
  | closed {offset start count : Nat} {inside after : String} {found : List (Nat × Nat)}
      (meets : Meets xml tag offset start (inside ++ ">" ++ after))
      (ends : (inside ++ ">" ++ after).toList.head?.any endsName = true)
      (inner : '>' ∉ inside.toList)
      (later : Rounds xml tag (start + ("<" ++ tag).utf8ByteSize) count found) :
      Rounds xml tag offset (count + 1)
        ((start, start + ("<" ++ tag).utf8ByteSize + (inside ++ ">").utf8ByteSize) :: found)

theorem openTagsFrom_eq (tag : List Char) (base : Nat) (text : List Char) :
    openTagsFrom tag base text =
      match Search.indexOf? ('<' :: tag) text with
      | none => []
      | some offset =>
          let next := base + offset + (tag.length + 1)
          let after := text.drop (offset + (tag.length + 1))
          if after.head?.any endsName then
            match Search.indexOf? ['>'] after with
            | none => []
            | some close => ⟨base + offset, next + close + 1⟩ :: openTagsFrom tag next after
          else openTagsFrom tag next after := by
  cases text with
  | nil => rw [openTagsFrom_nil]; rfl
  | cons first rest => rw [openTagsFrom]; rfl

section Round

variable {xml tag : String} {base offset : Nat}

theorem shape_of_first
    (first : Search.indexOf? ('<' :: tag.toList) (xml.toList.drop base) = some offset) :
    xml.toList.drop base = (xml.toList.drop base).take offset ++
      ('<' :: tag.toList ++ xml.toList.drop (base + offset + (tag.toList.length + 1))) := by
  have cut : Search.cut? ('<' :: tag.toList) (xml.toList.drop base) =
      some ((xml.toList.drop base).take offset,
        (xml.toList.drop base).drop (offset + ('<' :: tag.toList).length)) := by
    rw [Search.cut?, first, Option.map_some]
  have shape := Search.eq_append_of_cut? cut
  rwa [List.drop_drop, List.length_cons, ← Nat.add_assoc] at shape

theorem meets_of_first
    (first : Search.indexOf? ('<' :: tag.toList) (xml.toList.drop base) = some offset) :
    Meets xml tag (byteOffset xml.toList base) (byteOffset xml.toList (base + offset))
      (String.ofList (xml.toList.drop (base + offset + (tag.toList.length + 1)))) := by
  have shape := shape_of_first first
  have whole : String.ofList ((xml.toList.drop base).take offset) ++ ("<" ++ tag ++
      String.ofList (xml.toList.drop (base + offset + (tag.toList.length + 1)))) =
      String.ofList (xml.toList.drop base) := by
    rw [← String.toList_inj]
    refine Eq.trans ?_ (shape.symm.trans String.toList_ofList.symm)
    simp
  refine ⟨String.ofList ((xml.toList.drop base).take offset), ?_, byteOffset_add _ _ _, ?_⟩
  · rw [whole]
    exact behind_byteOffset xml base
  · rw [whole, String.toList_ofList, String.length_ofList, Search.length_take_of_indexOf? first,
      ← first]
    simp

theorem byteOffset_of_first
    (first : Search.indexOf? ('<' :: tag.toList) (xml.toList.drop base) = some offset) :
    byteOffset xml.toList (base + offset + (tag.toList.length + 1)) =
      byteOffset xml.toList (base + offset) + ("<" ++ tag).utf8ByteSize := by
  have begins : '<' :: tag.toList <+: xml.toList.drop (base + offset) := by
    have shape := congrArg (List.drop offset) (shape_of_first first)
    rw [List.drop_drop, List.drop_left' (Search.length_take_of_indexOf? first)] at shape
    exact ⟨_, shape.symm⟩
  have name : String.ofList ('<' :: tag.toList) = "<" ++ tag := by
    rw [← String.toList_inj]
    simp
  rw [← name]
  exact byteOffset_of_take (base + offset) begins

theorem inside_of_first {close : Nat}
    (closed : Search.indexOf? ['>'] (xml.toList.drop base) = some close) :
    ∃ inside after : String, String.ofList (xml.toList.drop base) = inside ++ ">" ++ after ∧
      '>' ∉ inside.toList ∧
      byteOffset xml.toList (base + close + 1) =
        byteOffset xml.toList base + (inside ++ ">").utf8ByteSize := by
  have cut : Search.cut? ['>'] (xml.toList.drop base) =
      some ((xml.toList.drop base).take close, (xml.toList.drop base).drop (close + 1)) := by
    rw [Search.cut?, closed]
    rfl
  have shape := Search.eq_append_of_cut? cut
  have begins : (xml.toList.drop base).take close ++ ['>'] <+: xml.toList.drop base :=
    ⟨(xml.toList.drop base).drop (close + 1), by rw [List.append_assoc]; exact shape.symm⟩
  refine ⟨String.ofList ((xml.toList.drop base).take close),
    String.ofList ((xml.toList.drop base).drop (close + 1)), ?_, ?_, ?_⟩
  · rw [← String.toList_inj]
    refine String.toList_ofList.trans (shape.trans ?_)
    simp
  · rw [String.toList_ofList]
    exact Search.not_mem_of_cut? cut
  · have further := byteOffset_of_take base begins
    rw [List.length_append, Search.length_take_of_indexOf? closed, String.ofList_append] at further
    exact further

end Round

/-- Each round but the last leaves one opening bracket less. -/
theorem rounds_openTagsFrom (xml tag : String) (base : Nat) :
    ∃ count ≤ (xml.toList.drop base).count '<' + 1,
      Rounds xml tag (byteOffset xml.toList base) count
        ((openTagsFrom tag.toList base (xml.toList.drop base)).map (OpenTag.bytes xml.toList)) := by
  -- On what is left of the text: the next round begins behind the name that was met.
  induction length : (xml.toList.drop base).length using Nat.strongRecOn generalizing base with
  | ind length ih =>
      rw [openTagsFrom_eq]
      cases first : Search.indexOf? ('<' :: tag.toList) (xml.toList.drop base) with
      | none =>
          refine ⟨1, Nat.le_add_left 1 _, .exhausted (behind_byteOffset xml base) ?_⟩
          simpa using first
      | some offset =>
          have meets := meets_of_first first
          have next := byteOffset_of_first first
          have shape := shape_of_first first
          generalize place : base + offset + (tag.toList.length + 1) = further at *
          have after : (xml.toList.drop base).drop (offset + (tag.toList.length + 1)) =
              xml.toList.drop further := by
            rw [List.drop_drop, ← place, Nat.add_assoc]
          have fewer : (xml.toList.drop further).count '<' + 1 ≤ (xml.toList.drop base).count '<' := by
            rw [shape]
            simp only [List.cons_append, List.count_append, List.count_cons_self]
            omega
          obtain ⟨count, bound, later⟩ := ih _ (by
            have shorter := congrArg List.length shape
            simp only [List.length_append, List.length_cons] at shorter
            omega) further rfl
          rw [next] at later
          simp only [after, place]
          by_cases ends : (xml.toList.drop further).head?.any endsName = true
          · rw [if_pos ends]
            cases closed : Search.indexOf? ['>'] (xml.toList.drop further) with
            | none =>
                -- The scan breaks off: no tag further on is closed either.
                have never := (Search.indexOf?_singleton_eq_none_iff '>' _).mp closed
                exact ⟨1, Nat.le_add_left 1 _, .unclosed meets (by simpa using ends) (by simpa)⟩
            | some close =>
                obtain ⟨inside, behind, shape, inner, content⟩ := inside_of_first closed
                rw [shape] at meets
                have begins : (inside ++ ">" ++ behind).toList.head?.any endsName = true := by
                  rwa [← shape, String.toList_ofList]
                refine ⟨count + 1, by omega, ?_⟩
                rw [List.map_cons, OpenTag.bytes, content, next]
                exact .closed meets begins inner later
          · rw [if_neg ends]
            exact ⟨count + 1, by omega, .longerName meets (by simpa using ends) later⟩

/-! Start tags in bytes. -/

/-- The start tags of a text: the byte where each begins, and the one where the text behind it
begins. -/
def offsets (xml tag : String) : List (Nat × Nat) :=
  (openTags xml tag).map (OpenTag.bytes xml.toList)

/-- Behind the offset stand the bracket and the name, a character that ends the name, and there or
further on a bracket that closes the tag. -/
def OpensAt (xml tag : String) (start : Nat) : Prop :=
  ∃ rest, Behind xml start ("<" ++ tag ++ rest) ∧ '>' ∈ rest.toList ∧
    ∃ next ∈ rest.toList.head?, next = '>' ∨ next = '/' ∨ Blank.isBlank next = true

theorem endsName_head_iff {next? : Option Char} :
    next?.any endsName = true ↔
      ∃ next ∈ next?, next = '>' ∨ next = '/' ∨ Blank.isBlank next = true := by
  cases next? <;> simp [endsName, or_assoc]

section StartTags

variable {xml tag : String}

theorem byteOffset_length {front rest : String} (shape : xml = front ++ rest) :
    byteOffset xml.toList front.length = front.utf8ByteSize := by
  rw [byteOffset, shape, String.toList_append, ← String.length_toList, List.take_left,
    String.ofList_toList]

theorem mem_openTags (free : '<' ∉ tag.toList) {found : OpenTag} :
    found ∈ openTags xml tag ↔
      ∃ front inside after : String, xml = front ++ ("<" ++ tag ++ inside ++ ">") ++ after ∧
        '>' ∉ inside.toList ∧ (inside ++ ">").toList.head?.any endsName = true ∧
        found = ⟨front.length, (front ++ ("<" ++ tag ++ inside ++ ">")).length⟩ := by
  rw [openTags, mem_openTagsFrom free]
  constructor
  · rintro ⟨front, inside, after, shape, inner, ends, rfl⟩
    refine ⟨String.ofList front, String.ofList inside, String.ofList after, ?_, by simpa,
      by simpa using ends, ?_⟩
    · rw [← String.toList_inj, shape]
      simp
    · simp [← String.length_toList]
      omega
  · rintro ⟨front, inside, after, rfl, inner, ends, rfl⟩
    refine ⟨front.toList, inside.toList, after.toList, by simp, inner, by simpa using ends, ?_⟩
    simp [← String.length_toList]
    omega

theorem bytes_of_shape {front opening after : String} (shape : xml = front ++ opening ++ after) :
    OpenTag.bytes xml.toList ⟨front.length, (front ++ opening).length⟩ =
      (front.utf8ByteSize, front.utf8ByteSize + opening.utf8ByteSize) := by
  rw [OpenTag.bytes, byteOffset_length shape, String.utf8ByteSize_append,
    byteOffset_length (shape.trans (String.append_assoc ..))]

theorem mem_offsets (free : '<' ∉ tag.toList) {start content : Nat} :
    (start, content) ∈ offsets xml tag ↔
      ∃ inside after : String, Behind xml start ("<" ++ tag ++ inside ++ ">" ++ after) ∧
        '>' ∉ inside.toList ∧ (inside ++ ">").toList.head?.any endsName = true ∧
        content = start + ("<" ++ tag ++ inside ++ ">").utf8ByteSize := by
  rw [offsets, List.mem_map]
  constructor
  · rintro ⟨found, member, same⟩
    obtain ⟨front, inside, after, shape, inner, ends, rfl⟩ := (mem_openTags free).mp member
    rw [bytes_of_shape shape, Prod.mk.injEq] at same
    obtain ⟨rfl, rfl⟩ := same
    exact ⟨inside, after, ⟨front, shape.trans (String.append_assoc ..), rfl⟩, inner, ends, rfl⟩
  · rintro ⟨inside, after, ⟨front, shape, rfl⟩, inner, ends, rfl⟩
    have whole := shape.trans (String.append_assoc ..).symm
    exact ⟨_, (mem_openTags free).mpr ⟨front, inside, after, whole, inner, ends, rfl⟩,
      bytes_of_shape whole⟩

theorem offsets_ordered (free : '<' ∉ tag.toList) :
    (offsets xml tag).Pairwise fun earlier later => earlier.1 < later.1 := by
  rw [offsets, List.pairwise_map]
  refine (openTagsFrom_ordered free 0 xml.toList).imp_of_mem fun member _ less => ?_
  obtain ⟨front, inside, after, shape, -, -, rfl⟩ := (mem_openTags free).mp member
  refine byteOffset_lt less ?_
  rw [String.length_toList, shape]
  simp only [String.length_append]
  have bracket : "<".length = 1 := rfl
  omega

theorem opensAt_iff (free : '<' ∉ tag.toList) {start : Nat} :
    OpensAt xml tag start ↔ start ∈ (offsets xml tag).map Prod.fst := by
  simp only [List.mem_map, Prod.exists, exists_and_right, exists_eq_right]
  constructor
  · rintro ⟨rest, behind, closes, next, first, ends⟩
    obtain ⟨inside, after, shape, inner⟩ := List.eq_append_cons_of_mem closes
    have parts : rest = String.ofList inside ++ ">" ++ String.ofList after := by
      rw [← String.toList_inj, shape]
      simp
    refine ⟨_, (mem_offsets free).mpr ⟨String.ofList inside, String.ofList after, ?_, by simpa, ?_, rfl⟩⟩
    · rw [parts] at behind
      simpa only [String.append_assoc] using behind
    · have head : (String.ofList inside ++ ">").toList.head? = rest.toList.head? := by
        rw [shape]
        cases inside <;> simp
      rw [head]
      exact endsName_head_iff.mpr ⟨next, first, ends⟩
  · rintro ⟨content, member⟩
    obtain ⟨inside, after, behind, inner, ends, -⟩ := (mem_offsets free).mp member
    refine ⟨inside ++ ">" ++ after, by simpa only [String.append_assoc] using behind, by simp, ?_⟩
    have head : (inside ++ ">" ++ after).toList.head? = (inside ++ ">").toList.head? := by
      rw [String.toList_append, List.head?_append, Option.or_of_isSome]
      simp
    rw [head]
    exact endsName_head_iff.mp ends

theorem slices_of_tag (free : '<' ∉ tag.toList) {found : OpenTag}
    (member : found ∈ openTags xml tag) :
    Slice xml (byteOffset xml.toList found.start) (byteOffset xml.toList found.content)
      (String.ofList ((xml.toList.drop found.start).take (found.content - found.start))) := by
  obtain ⟨front, inside, after, -, -, -, rfl⟩ := (mem_openTags free).mp member
  have slice := slice_byteOffset xml front.length ("<" ++ tag ++ inside ++ ">").length
  rw [← String.length_append] at slice
  rwa [String.length_append, Nat.add_sub_cancel_left, ← String.length_append]

theorem slice_of_inner? {found : OpenTag} {text : List Char}
    (inner : found.inner? xml.toList tag = some text) :
    Slice xml (byteOffset xml.toList found.content)
      (byteOffset xml.toList found.content + (String.ofList text).utf8ByteSize)
      (String.ofList text) := by
  obtain ⟨⟨front, back⟩, cut, rfl⟩ := Option.map_eq_some_iff.mp inner
  refine ⟨rfl, String.ofList (endTag tag ++ back), ?_⟩
  rw [← String.ofList_append, ← Search.eq_append_of_cut? cut]
  exact behind_byteOffset xml found.content

end StartTags

/-- The scan ends, after one round for each opening bracket at most and a last one. What it finds are
the bytes where a start tag stands, all of them and in their order, each with the byte behind the
first bracket that closes it; and the parts of the text that are looked at for the elements begin and
end between characters. -/
theorem start_tags_found_where_they_stand (xml tag : String) (free : '<' ∉ tag.toList) :
    (∃ count ≤ xml.toList.count '<' + 1, Rounds xml tag 0 count (offsets xml tag)) ∧
    (offsets xml tag).Pairwise (fun earlier later => earlier.1 < later.1) ∧
    (∀ start, OpensAt xml tag start ↔ start ∈ (offsets xml tag).map Prod.fst) ∧
    (∀ start content, (start, content) ∈ offsets xml tag → ∃ inside,
      Slice xml start content ("<" ++ tag ++ inside ++ ">") ∧ '>' ∉ inside.toList) ∧
    ∀ found ∈ openTags xml tag, ∀ start content, found.bytes xml.toList = (start, content) →
      (⟨start⟩ : String.Pos.Raw).IsValid xml ∧ (⟨content⟩ : String.Pos.Raw).IsValid xml ∧
      Slice xml start content
        (String.ofList ((xml.toList.drop found.start).take (found.content - found.start))) ∧
      Behind xml content (String.ofList (xml.toList.drop found.content)) ∧
      ∀ text, found.inner? xml.toList tag = some text →
        Slice xml content (content + (String.ofList text).utf8ByteSize) (String.ofList text) := by
  refine ⟨rounds_openTagsFrom xml tag 0, offsets_ordered free, fun start => opensAt_iff free, ?_, ?_⟩
  · intro start content member
    obtain ⟨inside, after, behind, inner, -, rfl⟩ := (mem_offsets free).mp member
    exact ⟨inside, ⟨rfl, after, behind⟩, inner⟩
  · rintro found member start content ⟨⟩
    exact ⟨(behind_byteOffset xml _).isValid, (behind_byteOffset xml _).isValid,
      slices_of_tag free member, behind_byteOffset xml _, fun text => slice_of_inner?⟩

/-- Tags in a text with characters of several bytes: one name goes on, one tag has a wide blank in
it, and one is never closed. -/
theorem tags_between_wide_characters_found :
    let xml := "é<a><ab/><a\u2003x>日<a"
    '<' ∉ "a".toList ∧ offsets xml "a" = [(2, 5), (10, 17)] ∧ OpensAt xml "a" 10 ∧
      ¬ OpensAt xml "a" 5 := by
  intro xml
  have free : '<' ∉ "a".toList := by decide
  have found : offsets xml "a" = [(2, 5), (10, 17)] := by decide +kernel
  obtain ⟨-, -, opens, -⟩ := start_tags_found_where_they_stand xml "a" free
  refine ⟨free, found, (opens 10).mpr (by rw [found]; decide), fun stands => ?_⟩
  have member := (opens 5).mp stands
  rw [found] at member
  exact absurd member (by decide)

end CrawlBoard.Xml
