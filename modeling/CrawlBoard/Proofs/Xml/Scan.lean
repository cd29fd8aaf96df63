import CrawlBoard.Proofs.Search
import CrawlBoard.Xml.Scan

namespace CrawlBoard.Xml

def startTag? (tag : List Char) : List Char → Option (List Char × List Char)
  | '<' :: rest =>
      if tag.isPrefixOf rest ∧ (rest.drop tag.length).head?.any endsName then
        Search.cut? ['>'] (rest.drop tag.length)
      else none
  | _ => none

def starts (tag : List Char) : List Char → List (List Char × List Char)
  | [] => []
  | char :: rest => (startTag? tag (char :: rest)).toList ++ starts tag rest

section Scan

variable {tag : List Char} {base : Nat} {char : Char} {front rest : List Char}

theorem openTagsFrom_nil : openTagsFrom tag base [] = [] := by
  rw [openTagsFrom]

theorem openTagsFrom_of_begins (begins : tag.isPrefixOf rest = true) :
    openTagsFrom tag base ('<' :: rest) =
      (let after := rest.drop tag.length
       let next := base + (tag.length + 1)
       if after.head?.any endsName then
         match Search.indexOf? ['>'] after with
         | none => []
         | some close => ⟨base, next + close + 1⟩ :: openTagsFrom tag next after
       else openTagsFrom tag next after) := by
  have found : Search.indexOf? ('<' :: tag) ('<' :: rest) = some 0 := by
    simp [Search.indexOf?, List.isPrefixOf, begins]
  rw [openTagsFrom, found]
  cases closed : Search.indexOf? ['>'] (rest.drop tag.length) with
  | none => simp only [Nat.add_zero, Nat.zero_add, closed]
  | some close => simp only [Nat.add_zero, Nat.zero_add, closed]

theorem openTagsFrom_of_other (begins : ('<' :: tag).isPrefixOf (char :: rest) = false) :
    openTagsFrom tag base (char :: rest) = openTagsFrom tag (base + 1) rest := by
  rw [openTagsFrom, Search.indexOf?, begins]
  cases rest with
  | nil => rw [openTagsFrom]; rfl
  | cons next rest =>
      rw [openTagsFrom]
      cases Search.indexOf? ('<' :: tag) (next :: rest) with
      | none => rfl
      | some offset =>
          simp only [Bool.false_eq_true, if_false, Option.map_some]
          have shifted : offset + 1 + tag.length = offset + tag.length + 1 := by omega
          have moved : base + (offset + 1) = base + 1 + offset := by omega
          rw [shifted, List.drop_succ_cons, moved]

theorem openTagsFrom_append (free : '<' ∉ front) :
    openTagsFrom tag base (front ++ rest) = openTagsFrom tag (base + front.length) rest := by
  induction front generalizing base with
  | nil => rfl
  | cons char front ih =>
      have other : ('<' == char) = false := by
        simpa using fun same : '<' = char => free (same ▸ List.mem_cons_self)
      rw [List.cons_append, openTagsFrom_of_other (by simp [List.isPrefixOf, other]),
        ih fun member => free (List.mem_cons_of_mem _ member), List.length_cons, Nat.add_assoc,
        Nat.add_comm 1]

theorem openTagsFrom_of_unclosed (unclosed : '>' ∉ rest) : openTagsFrom tag base rest = [] := by
  induction length : rest.length using Nat.strongRecOn generalizing base rest with
  | ind count ih =>
    cases rest with
    | nil => exact openTagsFrom_nil
    | cons char rest =>
        have shorter (dropped : Nat) (next : Nat) : openTagsFrom tag next (rest.drop dropped) = [] :=
          ih _ (by rw [← length, List.length_drop, List.length_cons]; omega)
            (fun member => unclosed (List.mem_cons_of_mem _ (List.mem_of_mem_drop member))) rfl
        by_cases begins : ('<' :: tag).isPrefixOf (char :: rest) = true
        · simp only [List.isPrefixOf, Bool.and_eq_true, beq_iff_eq] at begins
          obtain ⟨rfl, begins⟩ := begins
          have missing := (Search.indexOf?_singleton_eq_none_iff '>' (rest.drop tag.length)).mpr
            fun member => unclosed (List.mem_cons_of_mem _ (List.mem_of_mem_drop member))
          rw [openTagsFrom_of_begins begins]
          simp only [missing, shorter, ite_self]
        · rw [openTagsFrom_of_other (Bool.not_eq_true _ ▸ begins)]
          exact shorter 0 _

theorem startTag?_of_other (begins : ('<' :: tag).isPrefixOf (char :: rest) = false) :
    startTag? tag (char :: rest) = none := by
  unfold startTag?
  split
  · rename_i rest shape
    cases shape
    have other : tag.isPrefixOf rest = false := by
      simpa [List.isPrefixOf] using begins
    rw [if_neg (by simp [other])]
  · rfl

theorem openTagsFrom_cons (free : '<' ∉ tag) :
    openTagsFrom tag base (char :: rest) =
      (startTag? tag (char :: rest)).toList.map
          (fun found => ⟨base, base + tag.length + found.1.length + 2⟩)
        ++ openTagsFrom tag (base + 1) rest := by
  by_cases begins : ('<' :: tag).isPrefixOf (char :: rest) = true
  · simp only [List.isPrefixOf, Bool.and_eq_true, beq_iff_eq] at begins
    obtain ⟨rfl, begins⟩ := begins
    obtain ⟨after, rfl⟩ := List.isPrefixOf_iff_prefix.mp begins
    have next : base + (tag.length + 1) = base + 1 + tag.length := by omega
    rw [openTagsFrom_of_begins begins, openTagsFrom_append free, List.drop_left]
    simp only [next, startTag?, begins, List.drop_left, true_and, Search.cut?]
    by_cases ends : after.head?.any endsName = true
    · rw [if_pos ends, if_pos ends]
      cases found : Search.indexOf? ['>'] after with
      | none =>
          rw [openTagsFrom_of_unclosed ((Search.indexOf?_singleton_eq_none_iff '>' after).mp found)]
          rfl
      | some close =>
          have inside := Search.length_take_of_indexOf? found
          have content : base + 1 + tag.length + close + 1 = base + tag.length + close + 2 := by omega
          simp [inside, content]
    · rw [if_neg ends, if_neg ends]
      rfl
  · have other := Bool.not_eq_true _ ▸ begins
    rw [openTagsFrom_of_other other, startTag?_of_other other]
    rfl

theorem eq_of_startTag? {text inside after : List Char}
    (found : startTag? tag text = some (inside, after)) :
    text = '<' :: (tag ++ (inside ++ '>' :: after)) := by
  unfold startTag? at found
  split at found
  · split at found
    · rename_i shape
      obtain ⟨back, rfl⟩ := List.isPrefixOf_iff_prefix.mp shape.1
      rw [List.drop_left] at found
      rw [Search.eq_append_of_cut? found]
      rfl
    · cases found
  · cases found

theorem map_openTagsFrom (free : '<' ∉ tag) (before text : List Char) :
    (openTagsFrom tag before.length text).map (fun found =>
        (((before ++ text).drop found.start).take (found.content - found.start),
          (before ++ text).drop found.content)) =
      (starts tag text).map fun found => ('<' :: (tag ++ found.1 ++ ['>']), found.2) := by
  -- Over the text, with what has been scanned in front of it.
  induction text generalizing before with
  | nil => rw [openTagsFrom_nil]; rfl
  | cons char rest ih =>
      have later := ih (before ++ [char])
      rw [List.length_append, List.length_singleton, List.append_assoc, List.singleton_append] at later
      rw [openTagsFrom_cons free, starts, List.map_append, List.map_append, later]
      refine congrArg (· ++ _) ?_
      cases found : startTag? tag (char :: rest) with
      | none => rfl
      | some result =>
          obtain ⟨inside, after⟩ := result
          have length : before.length + tag.length + inside.length + 2 - before.length =
              ('<' :: (tag ++ inside ++ ['>'])).length := by
            simp only [List.length_cons, List.length_append, List.length_nil]
            omega
          have content : before.length + tag.length + inside.length + 2 =
              before.length + ('<' :: (tag ++ inside ++ ['>'])).length := by
            simp only [List.length_cons, List.length_append, List.length_nil]
            omega
          have shape : char :: rest = ('<' :: (tag ++ inside ++ ['>'])) ++ after := by
            rw [eq_of_startTag? found]
            simp
          simp only [Option.toList_some, List.map_cons, List.map_nil, List.drop_left]
          rw [length, content, ← List.drop_drop, List.drop_left, shape, List.take_left,
            List.drop_left]

end Scan

/-- What is taken of an element whose start tag has been found. An element that is written in one
tag gives `whole`. -/
def part? (name : String) (whole : Option String) (take : List Char → String)
    (found : List Char × List Char) : Option String :=
  if "/>".toList.isSuffixOf ('<' :: (name.toList ++ found.1 ++ ['>'])) then whole
  else (Search.cut? (endTag name) found.2).map fun text => take text.1

section Elements

variable {name : String}

theorem map_openTags (free : '<' ∉ name.toList) (xml : String) :
    (openTags xml name).map (fun found =>
        ((xml.toList.drop found.start).take (found.content - found.start),
          xml.toList.drop found.content)) =
      (starts name.toList xml.toList).map fun found =>
        ('<' :: (name.toList ++ found.1 ++ ['>']), found.2) :=
  map_openTagsFrom free [] xml.toList

theorem countElements_eq (free : '<' ∉ name.toList) (xml : String) :
    countElements xml name = (starts name.toList xml.toList).length := by
  have lengths := congrArg List.length (map_openTags free xml)
  rwa [List.length_map, List.length_map] at lengths

theorem filterMap_openTags (free : '<' ∉ name.toList) (xml : String) (whole : Option String)
    (take : List Char → String) :
    (openTags xml name).filterMap (fun tag =>
        if tag.selfClosing xml.toList then whole else (tag.inner? xml.toList name).map take) =
      (starts name.toList xml.toList).filterMap (part? name whole take) := by
  have views := congrArg (List.filterMap fun view : List Char × List Char =>
    if "/>".toList.isSuffixOf view.1 then whole
    else (Search.cut? (endTag name) view.2).map fun text => take text.1) (map_openTags free xml)
  rw [List.filterMap_map, List.filterMap_map] at views
  refine Eq.trans ?_ views
  simp only [OpenTag.selfClosing, OpenTag.inner?, Option.map_map]
  rfl

theorem elementTexts_eq (free : '<' ∉ name.toList) (xml : String) :
    elementTexts xml name = (starts name.toList xml.toList).filterMap
      (part? name (some "") fun text => Entity.unescape (String.ofList text)) :=
  filterMap_openTags free xml _ _

theorem elementBlocks_eq (free : '<' ∉ name.toList) (xml : String) :
    elementBlocks xml name =
      (starts name.toList xml.toList).filterMap (part? name none String.ofList) := by
  rw [← filterMap_openTags free, elementBlocks, List.filterMap_filter]
  refine congrArg (List.filterMap · _) (funext fun tag => ?_)
  cases tag.selfClosing xml.toList <;> rfl

end Elements

end CrawlBoard.Xml
