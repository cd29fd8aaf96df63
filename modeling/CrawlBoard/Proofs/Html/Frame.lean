import CrawlBoard.Proofs.Html.Escape
import CrawlBoard.Site.Html
import Mathlib.Algebra.GroupWithZero.Nat
import Mathlib.Data.List.Forall2
/-!
A page is a frame of markup whose holes are filled with escaped text. The frame alone decides the
markup characters of the page and the tags that occur in it.
-/

namespace CrawlBoard

def Piece.markup? : Piece → Option String
  | .markup written => some written
  | .text _ => none

def Piece.text? : Piece → Option String
  | .markup _ => none
  | .text value => some value

abbrev Frame := List (Option String)

def Frame.fill : Frame → List String → String
  | [], _ => ""
  | some markup :: frame, values => markup ++ fill frame values
  | none :: frame, value :: values => value ++ fill frame values
  | none :: frame, [] => fill frame []

namespace Html

def pieces (lines : List HtmlLine) : List Piece := [Piece.markup "\n"].intercalate lines

def frame (lines : List HtmlLine) : Frame := (pieces lines).map Piece.markup?

def texts (lines : List HtmlLine) : List String := lines.flatMap (List.filterMap Piece.text?)

/-- Lines that differ in nothing but their texts. -/
def SameMarkup (lines others : List HtmlLine) : Prop :=
  lines.map (List.map Piece.markup?) = others.map (List.map Piece.markup?)

def markupChars (page : String) : List Char := page.toList.filter Entity.isMarkup

section Pieces

theorem pieces_cons_cons (line next : HtmlLine) (lines : List HtmlLine) :
    pieces (line :: next :: lines) = line ++ Piece.markup "\n" :: pieces (next :: lines) := by
  rw [pieces, List.intercalate_cons_cons, List.append_assoc]
  rfl

theorem pieces_induct {holds : List HtmlLine → Prop} (nil : holds [])
    (last : ∀ line, holds [line])
    (cons : ∀ line next lines, holds (next :: lines) → holds (line :: next :: lines))
    (lines : List HtmlLine) : holds lines := by
  induction lines with
  | nil => exact nil
  | cons line lines ih =>
      cases lines with
      | nil => exact last line
      | cons next lines => exact cons line next lines ih

theorem renderLines_eq_join (lines : List HtmlLine) :
    renderLines lines = String.join ((pieces lines).map render) := by
  induction lines using pieces_induct with
  | nil => rfl
  | last line =>
      rw [renderLines, List.map_singleton, String.intercalate_singleton, pieces,
        List.intercalate_singleton, renderLine]
  | cons line next lines ih =>
      rw [renderLines, List.map_cons] at ih
      rw [renderLines, List.map_cons, List.map_cons, String.intercalate_cons_cons, ih,
        pieces_cons_cons, List.map_append, String.join_append, List.map_cons, String.join_cons,
        renderLine, String.append_assoc]
      rfl

theorem filterMap_pieces (lines : List HtmlLine) :
    (pieces lines).filterMap Piece.text? = texts lines := by
  induction lines using pieces_induct with
  | nil => rfl
  | last line => simp [pieces, texts]
  | cons line next lines ih =>
      rw [pieces_cons_cons, List.filterMap_append, List.filterMap_cons_none rfl, ih]
      rfl

theorem frame_of_sameMarkup {lines others : List HtmlLine} (same : SameMarkup lines others) :
    frame lines = frame others := by
  have map_pieces (lines : List HtmlLine) :
      frame lines = [some "\n"].intercalate (lines.map (List.map Piece.markup?)) := by
    induction lines using pieces_induct with
    | nil => rfl
    | last line => simp [frame, pieces]
    | cons line next lines ih =>
        rw [frame, List.map_cons] at ih
        rw [frame, pieces_cons_cons, List.map_append, List.map_cons, ih, List.map_cons,
          List.map_cons, List.intercalate_cons_cons, List.append_assoc]
        rfl
  rw [map_pieces, map_pieces, same]

theorem renderLines_eq_fill (lines : List HtmlLine) :
    renderLines lines = (frame lines).fill ((texts lines).map Entity.escapeHtml) := by
  rw [renderLines_eq_join, ← filterMap_pieces, frame]
  induction pieces lines with
  | nil => rfl
  | cons piece pieces ih =>
      rw [List.map_cons, String.join_cons, ih]
      cases piece <;> rfl

/-- The page is the frame, with each of the texts escaped in a hole of its own. -/
def Shows (page : String) (frame : Frame) (texts : List String) : Prop :=
  page = frame.fill (texts.map Entity.escapeHtml) ∧ frame.count none = texts.length

theorem renderLines_shows (lines : List HtmlLine) :
    Shows (renderLines lines) (frame lines) (texts lines) := by
  refine ⟨renderLines_eq_fill lines, ?_⟩
  rw [← filterMap_pieces, frame]
  induction pieces lines with
  | nil => rfl
  | cons piece pieces ih =>
      cases piece with
      | markup written => exact (List.count_cons_of_ne (Option.some_ne_none written)).trans ih
      | text value => exact List.count_cons_self.trans (congrArg (· + 1) ih)

theorem markupChars_append (front back : String) :
    markupChars (front ++ back) = markupChars front ++ markupChars back := by
  rw [markupChars, String.toList_append, List.filter_append]
  rfl

theorem markupChars_escapeHtml (text : String) : markupChars (Entity.escapeHtml text) = [] :=
  List.filter_eq_nil_iff.mpr fun char member =>
    Bool.not_eq_true _ ▸ (Entity.escaped_escapeHtml text).not_markup char member

theorem markupChars_renderLines (lines : List HtmlLine) :
    markupChars (renderLines lines) = (frame lines).flatMap (·.elim [] markupChars) := by
  rw [renderLines_eq_join, frame]
  induction pieces lines with
  | nil => rfl
  | cons piece pieces ih =>
      rw [List.map_cons, String.join_cons, markupChars_append, ih, List.map_cons,
        List.flatMap_cons]
      cases piece with
      | markup text => rfl
      | text value => rw [render, markupChars_escapeHtml]; rfl

end Pieces

/-! The texts of what lines are put together from. -/

section Texts

variable {depth : Nat}

@[simp] theorem texts_nil : texts [] = [] := rfl

@[simp] theorem texts_append (lines others : List HtmlLine) :
    texts (lines ++ others) = texts lines ++ texts others :=
  List.flatMap_append

@[simp] theorem texts_cons (line : HtmlLine) (lines : List HtmlLine) :
    texts (line :: lines) = line.filterMap Piece.text? ++ texts lines :=
  List.flatMap_cons

@[simp] theorem texts_map {α : Type} (items : List α) (line : α → HtmlLine) :
    texts (items.map line) = items.flatMap fun item => (line item).filterMap Piece.text? :=
  List.flatMap_map ..

@[simp] theorem texts_flatMap {α : Type} (items : List α) (lines : α → List HtmlLine) :
    texts (items.flatMap lines) = items.flatMap fun item => texts (lines item) :=
  List.flatMap_assoc

@[simp] theorem text?_markup_cons (written : String) (pieces : List Piece) :
    (Piece.markup written :: pieces).filterMap Piece.text? = pieces.filterMap Piece.text? := rfl

@[simp] theorem text?_text_cons (value : String) (pieces : List Piece) :
    (Piece.text value :: pieces).filterMap Piece.text? = value :: pieces.filterMap Piece.text? := rfl

@[simp] theorem text?_number_cons (n : Nat) (pieces : List Piece) :
    (number n :: pieces).filterMap Piece.text? = toString n :: pieces.filterMap Piece.text? := rfl

@[simp] theorem text?_line (pieces : List Piece) :
    (line depth pieces).filterMap Piece.text? = pieces.filterMap Piece.text? := rfl

@[simp] theorem text?_markup (written : String) :
    (markup depth written).filterMap Piece.text? = [] := rfl

@[simp] theorem text?_blank : (blank depth).filterMap Piece.text? = [] := rfl

@[simp] theorem texts_option (lines : List HtmlLine) : texts (option depth lines) = texts lines := by
  simp [option]

@[simp] theorem texts_when (condition : Bool) (lines : List HtmlLine) :
    texts (when depth condition lines) = if condition then texts lines else [] := by
  cases condition <;> simp [«when»]

@[simp] theorem texts_each {α : Type} (items : List α) (lines : α → List HtmlLine) :
    texts (each depth items lines) = items.flatMap fun item => texts (lines item) := by
  simp [each]

end Texts

namespace SameMarkup

variable {lines others more otherMore : List HtmlLine} {depth : Nat}

theorem refl (lines : List HtmlLine) : SameMarkup lines lines := rfl

theorem append (first : SameMarkup lines others) (second : SameMarkup more otherMore) :
    SameMarkup (lines ++ more) (others ++ otherMore) := by
  rw [SameMarkup, List.map_append, List.map_append, first, second]

theorem option (inner : SameMarkup lines others) :
    SameMarkup (option depth lines) (option depth others) :=
  .append (.refl [blank depth]) (.append inner (.refl [blank depth]))

theorem when {condition other : Bool} (same : condition = other)
    (inner : condition = true → SameMarkup lines others) :
    SameMarkup (when depth condition lines) (when depth other others) := by
  subst same
  cases condition with
  | false => exact .refl _
  | true => exact .option (inner rfl)

theorem flatMap {α β : Type} {alike : α → β → Prop} {items : List α} {changed : List β}
    {lines : α → List HtmlLine} {others : β → List HtmlLine}
    (pairs : List.Forall₂ alike items changed)
    (each : ∀ item other, alike item other → SameMarkup (lines item) (others other)) :
    SameMarkup (items.flatMap lines) (changed.flatMap others) := by
  induction pairs with
  | nil => exact .refl []
  | cons pair _ ih => exact .append (each _ _ pair) ih

theorem each {α β : Type} {alike : α → β → Prop} {items : List α} {changed : List β}
    {lines : α → List HtmlLine} {others : β → List HtmlLine}
    (pairs : List.Forall₂ alike items changed)
    (each : ∀ item other, alike item other → SameMarkup (lines item) (others other)) :
    SameMarkup (Html.each depth items lines) (Html.each depth changed others) :=
  .append (.refl [blank depth])
    (.flatMap pairs fun item other pair => .append (each item other pair) (.refl [blank depth]))

theorem optional {α β : Type} {item? : Option α} {other? : Option β} {lines : α → List HtmlLine}
    {others : β → List HtmlLine} (present : item?.isSome = other?.isSome)
    (each : ∀ item ∈ item?, ∀ other ∈ other?, SameMarkup (lines item) (others other)) :
    SameMarkup (item?.toList.flatMap lines) (other?.toList.flatMap others) := by
  cases item? with
  | none =>
      obtain rfl := Option.isSome_eq_false_iff.mp present.symm |> Option.isNone_iff_eq_none.mp
      exact .refl []
  | some item =>
      obtain ⟨other, rfl⟩ := Option.isSome_iff_exists.mp present.symm
      exact .append (each item rfl other rfl) (.refl [])

end SameMarkup

/-! How often a tag occurs. -/

def occurrences (tag : List Char) : List Char → Nat
  | [] => 0
  | char :: rest => (if tag <+: char :: rest then 1 else 0) + occurrences tag rest

/-- No text breaks off inside the tag, so what follows cannot complete it. -/
def Whole (tag : List Char) : List Char → Prop
  | [] => True
  | char :: rest => (char :: rest <+: tag → char :: rest = tag) ∧ Whole tag rest

instance decidableWhole (tag : List Char) : (text : List Char) → Decidable (Whole tag text)
  | [] => .isTrue trivial
  | char :: rest =>
      have := decidableWhole tag rest
      inferInstanceAs (Decidable ((char :: rest <+: tag → char :: rest = tag) ∧ Whole tag rest))

theorem occurrences_append {tag text : List Char} (whole : Whole tag text) (rest : List Char) :
    occurrences tag (text ++ rest) = occurrences tag text + occurrences tag rest := by
  induction text with
  | nil => rw [List.nil_append, occurrences, Nat.zero_add]
  | cons char text ih =>
      have begins : tag <+: char :: (text ++ rest) ↔ tag <+: char :: text := by
        constructor
        · intro begins
          rcases List.prefix_or_prefix_of_prefix begins (List.prefix_append (char :: text) rest) with
            inside | across
          · exact inside
          · exact (whole.1 across) ▸ List.prefix_rfl
        · exact fun inside => inside.trans (List.prefix_append (char :: text) rest)
      rw [List.cons_append, occurrences, ih whole.2, occurrences, if_congr begins rfl rfl,
        Nat.add_assoc]

theorem whole_of_escaped (name : List Char) {text : List Char} (escaped : Entity.Escaped text) :
    Whole ('<' :: name) text ∧ occurrences ('<' :: name) text = 0 := by
  have plain := escaped.not_markup
  clear escaped
  -- Escaped text has no bracket, and every tag begins with one.
  induction text with
  | nil => exact ⟨trivial, rfl⟩
  | cons char text ih =>
      have ⟨head, tail⟩ := List.forall_mem_cons.mp plain
      have ⟨whole, absent⟩ := ih tail
      have other : char ≠ '<' := fun same => by
        subst same
        exact absurd head (by decide)
      refine ⟨⟨fun begins => absurd (List.cons_prefix_cons.mp begins).1 other, whole⟩, ?_⟩
      rw [occurrences, absent, if_neg fun begins => other (List.cons_prefix_cons.mp begins).1.symm]

theorem occurrences_join {name : List Char} {pieces : List Piece}
    (whole : ∀ text ∈ pieces.filterMap Piece.markup?, Whole ('<' :: name) text.toList) :
    occurrences ('<' :: name) (String.join (pieces.map render)).toList =
      ((pieces.filterMap Piece.markup?).map fun text => occurrences ('<' :: name) text.toList).sum := by
  induction pieces with
  | nil => rfl
  | cons piece pieces ih =>
      rw [List.map_cons, String.join_cons, String.toList_append]
      cases piece with
      | markup text =>
          have ⟨head, tail⟩ := List.forall_mem_cons.mp whole
          rw [render, occurrences_append head, ih tail]
          rfl
      | text value =>
          have ⟨unbroken, absent⟩ := whole_of_escaped name (Entity.escaped_escapeHtml value)
          rw [render, occurrences_append unbroken, absent, Nat.zero_add, ih whole]
          rfl

def markups (lines : List HtmlLine) : List String := lines.flatMap (List.filterMap Piece.markup?)

@[simp] theorem markups_nil : markups [] = [] := rfl

@[simp] theorem markups_cons (line : HtmlLine) (lines : List HtmlLine) :
    markups (line :: lines) = line.filterMap Piece.markup? ++ markups lines :=
  List.flatMap_cons

@[simp] theorem markup?_markup_cons (written : String) (pieces : List Piece) :
    (Piece.markup written :: pieces).filterMap Piece.markup? =
      written :: pieces.filterMap Piece.markup? := rfl

@[simp] theorem markup?_text_cons (value : String) (pieces : List Piece) :
    (Piece.text value :: pieces).filterMap Piece.markup? = pieces.filterMap Piece.markup? := rfl

@[simp] theorem markup?_number_cons (n : Nat) (pieces : List Piece) :
    (number n :: pieces).filterMap Piece.markup? = pieces.filterMap Piece.markup? := rfl

theorem markup_pieces_cons_cons (line next : HtmlLine) (lines : List HtmlLine) :
    (pieces (line :: next :: lines)).filterMap Piece.markup? =
      line.filterMap Piece.markup? ++ "\n" :: (pieces (next :: lines)).filterMap Piece.markup? := by
  rw [pieces_cons_cons, List.filterMap_append]
  rfl

theorem mem_markup_pieces {lines : List HtmlLine} {text : String}
    (member : text ∈ (pieces lines).filterMap Piece.markup?) : text = "\n" ∨ text ∈ markups lines := by
  induction lines using pieces_induct with
  | nil => nomatch member
  | last line => exact .inr (by simpa [pieces, markups] using member)
  | cons line next lines ih =>
      rw [markup_pieces_cons_cons, List.mem_append, List.mem_cons] at member
      rcases member with inside | rfl | behind
      · exact .inr (List.mem_append_left _ inside)
      · exact .inl rfl
      · exact (ih behind).imp_right (List.mem_append_right _)

theorem sum_markup_pieces {weight : String → Nat} (breaks : weight "\n" = 0)
    (lines : List HtmlLine) :
    (((pieces lines).filterMap Piece.markup?).map weight).sum = ((markups lines).map weight).sum := by
  induction lines using pieces_induct with
  | nil => rfl
  | last line => simp [pieces, markups]
  | cons line next lines ih =>
      rw [markup_pieces_cons_cons, List.map_append, List.map_cons, List.sum_append, List.sum_cons,
        ih, breaks, Nat.zero_add, ← List.sum_append, ← List.map_append]
      rfl

/-- In the markup each of the tags occurs so many times, and nowhere does one break off. -/
def MarkupCounts (tags : List (List Char)) (count : Nat) (markup : List (List Char)) : Prop :=
  ∀ tag ∈ tags, (∀ text ∈ markup, Whole tag text) ∧ (markup.map (occurrences tag)).sum = count

instance (tags : List (List Char)) (count : Nat) (markup : List (List Char)) :
    Decidable (MarkupCounts tags count markup) :=
  inferInstanceAs (Decidable (∀ tag ∈ tags, (∀ text ∈ markup, Whole tag text) ∧
    (markup.map (occurrences tag)).sum = count))

def Counts (tags : List (List Char)) (count : Nat) (lines : List HtmlLine) : Prop :=
  MarkupCounts tags count ((markups lines).map String.toList)

instance (tags : List (List Char)) (count : Nat) (lines : List HtmlLine) :
    Decidable (Counts tags count lines) :=
  inferInstanceAs (Decidable (MarkupCounts tags count ((markups lines).map String.toList)))

/-- Texts add no tag and break none. -/
theorem Counts.occurrences {tags : List (List Char)} {count : Nat} {lines : List HtmlLine}
    (counts : Counts tags count lines) {name : List Char} (known : '<' :: name ∈ tags) :
    occurrences ('<' :: name) (renderLines lines).toList = count := by
  have ⟨whole, sum⟩ := counts _ known
  rw [List.map_map] at sum
  have lineBreak : Whole ('<' :: name) ['\n'] ∧ Html.occurrences ('<' :: name) ['\n'] = 0 :=
    whole_of_escaped name (.plain rfl (by decide) .nil)
  rw [renderLines_eq_join, occurrences_join, sum_markup_pieces lineBreak.2]
  · exact sum
  intro text member
  rcases mem_markup_pieces member with rfl | inside
  · exact lineBreak.1
  · exact whole _ (List.mem_map_of_mem inside)

namespace Counts

variable {tags : List (List Char)} {count more : Nat} {lines others : List HtmlLine} {depth : Nat}

theorem append (first : Counts tags count lines) (second : Counts tags more others) :
    Counts tags (count + more) (lines ++ others) := by
  intro tag known
  have ⟨whole, sum⟩ := first tag known
  have ⟨otherWhole, otherSum⟩ := second tag known
  rw [markups, List.flatMap_append, List.map_append, List.map_append, List.sum_append]
  exact ⟨List.forall_mem_append.mpr ⟨whole, otherWhole⟩, congrArg₂ (· + ·) sum otherSum⟩

theorem after (free : Counts tags 0 lines) (counts : Counts tags count others) :
    Counts tags count (lines ++ others) :=
  Nat.zero_add count ▸ append free counts

theorem insert (around : Counts tags count (lines ++ others)) {inner : List HtmlLine}
    (free : Counts tags 0 inner) : Counts tags count (lines ++ inner ++ others) := by
  intro tag known
  have ⟨whole, sum⟩ := around tag known
  have ⟨innerWhole, innerSum⟩ := free tag known
  simp only [markups, List.flatMap_append, List.forall_mem_append, List.map_append,
    List.sum_append] at whole sum innerWhole innerSum ⊢
  exact ⟨⟨⟨whole.1, innerWhole⟩, whole.2⟩, by rw [innerSum, Nat.add_zero, sum]⟩

theorem flatMap {α : Type} {lines : α → List HtmlLine} {items : List α}
    (each : ∀ item ∈ items, Counts tags count (lines item)) :
    Counts tags (items.length * count) (items.flatMap lines) := by
  induction items with
  | nil => exact fun _ _ => ⟨fun _ member => (nomatch member), (Nat.zero_mul count).symm⟩
  | cons item items ih =>
      have ⟨head, tail⟩ := List.forall_mem_cons.mp each
      rw [List.length_cons, Nat.succ_mul, Nat.add_comm]
      exact append head (ih tail)

end Counts

end Html

end CrawlBoard
