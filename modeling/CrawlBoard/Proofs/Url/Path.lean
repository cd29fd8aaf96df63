import CrawlBoard.Proofs.Search
import CrawlBoard.Proofs.Url.Escape
import CrawlBoard.Url.Parser

namespace CrawlBoard.Url

open UrlEscape (Settled)

theorem splitWhere_eq (cuts : Char → Bool) (text : List Char) :
    splitWhere cuts text = text.splitOnP cuts := by
  induction text with
  | nil => rfl
  | cons char rest ih =>
      rw [splitWhere, List.splitOnP_cons_eq_if_modifyHead, ih]
      split
      · rfl
      · cases shape : rest.splitOnP cuts with
        | nil => exact absurd shape (List.splitOnP_ne_nil cuts rest)
        | cons part parts => rfl

theorem not_cut_of_mem_splitWhere {cuts : Char → Bool} {text piece : List Char}
    (present : piece ∈ splitWhere cuts text) {char : Char} (member : char ∈ piece) :
    cuts char = false ∧ char ∈ text := by
  induction text generalizing piece with
  | nil =>
      cases List.mem_singleton.mp present
      cases member
  | cons first rest ih =>
      have later {piece : List Char} (present : piece ∈ splitWhere cuts rest) (member : char ∈ piece) :
          cuts char = false ∧ char ∈ first :: rest :=
        (ih present member).imp_right (List.mem_cons_of_mem _)
      unfold splitWhere at present
      split at present
      · rcases List.mem_cons.mp present with rfl | present
        · cases member
        · exact later present member
      · rename_i stays
        split at present
        · rename_i none
          rw [splitWhere_eq] at none
          exact absurd none (List.splitOnP_ne_nil _ _)
        · rename_i part parts shape
          rcases List.mem_cons.mp present with rfl | present
          · rcases List.mem_cons.mp member with rfl | member
            · exact ⟨by simpa using stays, List.mem_cons_self⟩
            · exact later (shape ▸ List.mem_cons_self) member
          · exact later (shape ▸ List.mem_cons_of_mem _ present) member

structure Clean (segment : String) : Prop where
  settled : Settled UrlEscape.path segment.toList
  whole : ∀ char ∈ segment.toList, isSlash true char = false

def pathChars (parts : List String) : List Char := parts.flatMap fun part => '/' :: part.toList

theorem toList_text_segments (parts : List String) :
    (UrlPath.segments parts).text.toList = pathChars parts := by
  rw [UrlPath.text, String.toList_join, List.flatMap_map]
  refine congrArg (List.flatMap · parts) (funext fun part => ?_)
  rw [String.toList_append]
  rfl

theorem pathChars_eq_nil_iff {parts : List String} : pathChars parts = [] ↔ parts = [] := by
  cases parts <;> simp [pathChars]

theorem splitWhere_pathChars {first : String} {parts : List String} (clean : Clean first)
    (others : ∀ part ∈ parts, Clean part) :
    splitWhere (isSlash true) (first.toList ++ pathChars parts) =
      first.toList :: parts.map String.toList := by
  induction parts generalizing first with
  | nil =>
      rw [pathChars, List.flatMap_nil, List.append_nil, splitWhere_eq,
        List.splitOnP_eq_singleton clean.whole]
      rfl
  | cons next parts ih =>
      have tail := ih (others next List.mem_cons_self) fun part member =>
        others part (List.mem_cons_of_mem _ member)
      rw [splitWhere_eq] at tail ⊢
      rw [pathChars, List.flatMap_cons, List.cons_append,
        List.splitOnP_append_cons_of_forall_mem clean.whole '/' rfl, ← pathChars, tail]
      rfl

theorem pathAfterHost_pathChars {parts : List String} (given : parts ≠ [])
    (clean : ∀ part ∈ parts, Clean part) :
    pathAfterHost true (pathChars parts) = .segments (resolve [] parts) := by
  cases parts with
  | nil => exact absurd rfl given
  | cons first parts =>
      have pieces := splitWhere_pathChars (clean first List.mem_cons_self) fun part member =>
        clean part (List.mem_cons_of_mem _ member)
      have escaped : (first.toList :: parts.map String.toList).map (UrlEscape.apply UrlEscape.path) =
          first :: parts := by
        rw [← List.map_cons, List.map_map]
        refine (List.map_congr_left fun part member => ?_).trans (List.map_id' _)
        rw [Function.comp, (clean part member).settled.apply, String.ofList_toList]
      rw [pathChars, List.flatMap_cons, List.cons_append, ← pathChars]
      change segments true (first.toList ++ pathChars parts) = _
      rw [segments, pieces, escaped]

theorem resolve_of_plain {parts : List String} (plain : ∀ part ∈ parts, dots part = 0)
    (done : List String) : resolve done parts = done.reverse ++ parts := by
  induction parts generalizing done with
  | nil => simp [resolve]
  | cons first parts ih =>
      have none : dots first = 0 := plain first List.mem_cons_self
      have tail := ih (fun part member => plain part (List.mem_cons_of_mem _ member)) (first :: done)
      cases parts with
      | nil => simp [resolve, none]
      | cons next parts =>
          rw [resolve, none]
          · simpa using tail
          · exact fun absurd => nomatch absurd

theorem dots_empty : dots "" = 0 := by cbv

def dotTexts : List String := [".", "%2e", "..", ".%2e", "%2e.", "%2e%2e"]

theorem dots_eq_zero {segment : String}
    (other : segment.toList.map Char.toLower ∉ dotTexts.map String.toList) : dots segment = 0 := by
  have none {mark : String} (listed : mark ∈ dotTexts) : segment.map Char.toLower ≠ mark := by
    rintro rfl
    exact other (String.toList_map ▸ List.mem_map_of_mem listed)
  unfold dots
  split
  case h_7 => rfl
  all_goals
    rename_i same
    exact absurd same (none (by decide))

theorem parent_subset (above : List String) : parent above ⊆ above := by
  unfold parent
  split
  · exact List.nil_subset _
  · split
    · exact List.Subset.refl _
    · exact List.subset_cons_self _ _

theorem mem_resolve {done parts : List String} {part : String} (member : part ∈ resolve done parts) :
    part ∈ done ∨ part = "" ∨ (part ∈ parts ∧ dots part = 0) := by
  have before {last : String} {above done : List String} (within : above ⊆ done)
      (member : part ∈ (last :: above).reverse) : part = last ∨ part ∈ done :=
    (List.mem_cons.mp (List.mem_reverse.mp member)).imp_right fun inside => within inside
  -- The cases are those of the resolution: an end, a plain segment, or one or two dots.
  fun_induction resolve done parts with
  | case1 done => exact .inl (List.mem_reverse.mp member)
  | case2 done last plain =>
      rcases before (List.Subset.refl _) member with rfl | inside
      · exact .inr (.inr ⟨List.mem_singleton_self _, plain⟩)
      · exact .inl inside
  | case3 done last =>
      rcases before (List.Subset.refl _) member with rfl | inside
      · exact .inr (.inl rfl)
      · exact .inl inside
  | case4 done last =>
      rcases before (parent_subset _) member with rfl | inside
      · exact .inr (.inl rfl)
      · exact .inl inside
  | case5 done segment rest _ plain ih =>
      rcases ih member with inside | empty | ⟨inside, none⟩
      · rcases List.mem_cons.mp inside with rfl | inside
        · exact .inr (.inr ⟨List.mem_cons_self, plain⟩)
        · exact .inl inside
      · exact .inr (.inl empty)
      · exact .inr (.inr ⟨List.mem_cons_of_mem _ inside, none⟩)
  | case6 done segment rest _ _ ih =>
      rcases ih member with inside | empty | ⟨inside, none⟩
      · exact .inl inside
      · exact .inr (.inl empty)
      · exact .inr (.inr ⟨List.mem_cons_of_mem _ inside, none⟩)
  | case7 done segment rest _ _ _ ih =>
      rcases ih member with inside | empty | ⟨inside, none⟩
      · exact .inl (parent_subset _ inside)
      · exact .inr (.inl empty)
      · exact .inr (.inr ⟨List.mem_cons_of_mem _ inside, none⟩)

theorem resolve_ne_nil {parts : List String} (given : parts ≠ []) (done : List String) :
    resolve done parts ≠ [] := by
  fun_induction resolve done parts with
  | case1 done => exact absurd rfl given
  | case2 | case3 | case4 => simp
  | case5 _ _ _ more _ ih | case6 _ _ _ more _ ih | case7 _ _ _ more _ _ ih => exact ih more

structure Plain (segment : String) : Prop extends Clean segment where
  noDots : dots segment = 0

theorem plain_empty : Plain "" := ⟨⟨by simp [Settled], by simp⟩, dots_empty⟩

theorem plain_of_pathAfterHost (text : List Char) :
    ∃ parts, pathAfterHost true text = .segments parts ∧ parts ≠ [] ∧ ∀ part ∈ parts, Plain part := by
  have read (text : List Char) : ∃ parts, segments true text = .segments parts ∧ parts ≠ [] ∧
      ∀ part ∈ parts, Plain part := by
    refine ⟨_, rfl, resolve_ne_nil ?_ [], fun part member => ?_⟩
    · rw [splitWhere_eq]
      simp
    · rcases mem_resolve member with done | rfl | ⟨written, none⟩
      · cases done
      · exact plain_empty
      · obtain ⟨piece, present, rfl⟩ := List.mem_map.mp written
        refine ⟨⟨UrlEscape.proper_path.settled_apply _, fun char inside => ?_⟩, none⟩
        rcases (UrlEscape.proper_path.mem_apply inside).2 with escape | inPiece
        · exact (by decide : ∀ char ∈ UrlEscape.escapeChars, isSlash true char = false) char escape
        · exact (not_cut_of_mem_splitWhere present inPiece).1
  unfold pathAfterHost
  split
  · exact ⟨[""], rfl, List.cons_ne_nil _ _,
      fun part member => List.mem_singleton.mp member ▸ plain_empty⟩
  · split
    · exact read _
    · exact read _

theorem dropTrailing_pathChars {parts : List String} (clean : ∀ part ∈ parts, Clean part) :
    ∃ kept, kept ⊆ parts ∧ Search.dropTrailing (· = '/') (pathChars parts) = pathChars kept := by
  generalize backwards : parts.reverse = reversed
  induction reversed generalizing parts with
  | nil => exact ⟨[], List.nil_subset _, by rw [List.reverse_eq_nil_iff.mp backwards]; rfl⟩
  | cons last front ih =>
      obtain rfl : parts = front.reverse ++ [last] := by
        rw [← List.reverse_reverse parts, backwards, List.reverse_cons]
      have chars : pathChars (front.reverse ++ [last]) =
          pathChars front.reverse ++ '/' :: last.toList := by
        simp [pathChars]
      cases shape : last.toList with
      | nil =>
          obtain ⟨kept, within, dropped⟩ := ih
            (fun part member => clean part (List.mem_append_left _ member)) (List.reverse_reverse _)
          refine ⟨kept, fun part member => List.mem_append_left _ (within member), ?_⟩
          rw [chars, shape, Search.dropTrailing_concat (by decide), dropped]
      | cons first rest =>
          refine ⟨_, List.Subset.refl _, Search.dropTrailing_of_last fun char found => ?_⟩
          have inLast : char ∈ last.toList := by
            have some : (first :: rest).getLast?.isSome :=
              List.getLast?_isSome.mpr (List.cons_ne_nil _ _)
            rw [chars, shape, List.getLast?_append, List.getLast?_cons_cons,
              Option.or_of_isSome some] at found
            exact shape ▸ List.mem_of_getLast? found
          have whole := (clean last (List.mem_append_right _ List.mem_cons_self)).whole char inLast
          simpa [isSlash] using fun slash : char = '/' => by simp [slash, isSlash] at whole

end CrawlBoard.Url
