import CrawlBoard.Proofs.Xml.Markup
import Mathlib.Data.List.Basic

namespace CrawlBoard.Xml.Node

/-- No element of the name stands inside another one. -/
def Flat (tag : Name) (nodes : List Node) : Prop :=
  ∀ name attributes children, .element name attributes children ∈ namedIn tag nodes →
    namedIn tag children = []

def part? (whole : Option String) (take : List Char → String) : Node → Option String
  | .text _ => none
  | .element _ _ children => some (take (charsOf children))
  | .empty _ _ => whole

/-- What an element encloses, as it is written; nothing for one that is written in one tag. -/
def inner? : Node → Option String
  | .element _ _ children => some (String.ofList (charsOf children))
  | _ => none

theorem closes_empty (name : Name) (attributes : List Attribute) :
    "/>".toList.isSuffixOf (name.opening (attributeChars attributes ++ ['/'])) = true := by
  rw [List.isSuffixOf_iff_suffix]
  exact ⟨'<' :: (name.chars ++ attributeChars attributes), by simp [Name.opening]⟩

theorem getLast?_ne_slash (name : Name) (attributes : List Attribute) :
    ('<' :: (name.chars ++ attributeChars attributes)).getLast? ≠ some '/' := by
  intro slash
  obtain rfl | ⟨before, ⟨last, quote, value, quoted, plain⟩, rfl⟩ :=
    List.eq_nil_or_concat attributes
  · have noSlash : '/' ∉ name.chars := Name.not_mem (by decide)
    have member := List.mem_of_getLast? slash
    simp [attributeChars, noSlash] at member
  · have shape : '<' :: (name.chars
          ++ attributeChars (before.concat ⟨last, quote, value, quoted, plain⟩)) =
        '<' :: (name.chars ++ attributeChars before
          ++ ' ' :: (last.chars ++ '=' :: quote :: value.toList)) ++ [quote] := by
      simp [attributeChars, Attribute.chars]
    rw [shape, List.getLast?_concat] at slash
    cases slash
    rcases quoted with same | same <;> cases same

theorem closes_element (name : Name) (attributes : List Attribute) :
    "/>".toList.isSuffixOf (name.opening (attributeChars attributes)) = false := by
  refine Bool.not_eq_true _ ▸ fun closes => getLast?_ne_slash name attributes ?_
  obtain ⟨before, shape⟩ := List.isSuffixOf_iff_suffix.mp closes
  have same : before ++ ['/'] ++ ['>'] =
      '<' :: (name.chars ++ attributeChars attributes) ++ ['>'] := by
    simpa [Name.opening] using shape
  rw [← List.append_cancel_right same, List.getLast?_concat]

section Found

variable {tag : Name} {nodes : List Node}

theorem starts_charsOf_nil : starts tag.chars (charsOf nodes) =
    (locatedIn tag [] nodes).map fun found => (found.1.inside, found.2) := by
  have found := starts_charsOf tag [] nodes
  rwa [List.append_nil, starts, List.append_nil] at found

theorem cut?_located (flat : Flat tag nodes) {name : Name} {attributes : List Attribute}
    {children : List Node} {after : List Char}
    (found : (.element name attributes children, after) ∈ locatedIn tag [] nodes) :
    (Search.cut? (endTag tag.text) after).map (·.1) = some (charsOf children) := by
  have present : .element name attributes children ∈ namedIn tag nodes :=
    map_fst_locatedIn tag [] nodes ▸ List.mem_map_of_mem found
  obtain ⟨-, back, same⟩ := precedes_of_locatedIn tag [] nodes _ found
  have cut := cut?_charsOf tag (tag.closing ++ back) children (flat name attributes children present)
  rw [← same, cut?_closing] at cut
  exact (congrArg (Option.map (·.1)) cut).trans (congrArg some (List.append_nil _))

theorem countElements_charsOf (tag : Name) (nodes : List Node) :
    countElements (String.ofList (charsOf nodes)) tag.text = (namedIn tag nodes).length := by
  rw [countElements_eq tag.noOpening, String.toList_ofList]
  refine (congrArg List.length starts_charsOf_nil).trans ?_
  rw [List.length_map, ← map_fst_locatedIn tag [] nodes, List.length_map]

/-- From the start tags that are found, the same is taken as from the elements of the name. -/
theorem filterMap_starts (flat : Flat tag nodes) (whole : Option String)
    (take : List Char → String) :
    (starts tag.chars (charsOf nodes)).filterMap (Xml.part? tag.text whole take) =
      (namedIn tag nodes).filterMap (part? whole take) := by
  rw [starts_charsOf_nil, List.filterMap_map, ← map_fst_locatedIn tag [] nodes, List.filterMap_map]
  refine List.filterMap_congr fun found member => ?_
  obtain ⟨element, after⟩ := found
  cases element with
  | text content => exact (precedes_of_locatedIn tag [] nodes _ member).elim
  | element name attributes children =>
      have cut := congrArg (Option.map take) (cut?_located flat member)
      rw [Option.map_map] at cut
      exact (if_neg (Bool.eq_false_iff.mp (closes_element tag attributes))).trans cut
  | empty name attributes => exact if_pos (closes_empty tag attributes)

theorem elementTexts_charsOf (flat : Flat tag nodes) :
    elementTexts (String.ofList (charsOf nodes)) tag.text =
      (namedIn tag nodes).filterMap
        (part? (some "") fun text => Entity.unescape (String.ofList text)) := by
  rw [elementTexts_eq tag.noOpening, String.toList_ofList]
  exact filterMap_starts flat _ _

theorem elementBlocks_charsOf (flat : Flat tag nodes) :
    elementBlocks (String.ofList (charsOf nodes)) tag.text =
      (namedIn tag nodes).filterMap (part? none String.ofList) := by
  rw [elementBlocks_eq tag.noOpening, String.toList_ofList]
  exact filterMap_starts flat _ _

theorem filterMap_namedIn (whole : Option String) (take : List Char → String) :
    (namedIn tag nodes).filterMap (part? whole take) =
      (namedIn tag nodes).filterMap fun element =>
        (element.inner?.map fun text => take text.toList).or whole := by
  rw [← map_fst_locatedIn tag [] nodes, List.filterMap_map, List.filterMap_map]
  refine List.filterMap_congr fun found member => ?_
  obtain ⟨element, after⟩ := found
  cases element with
  | text content => exact (precedes_of_locatedIn tag [] nodes _ member).elim
  | element name attributes children => simp [part?, inner?]
  | empty name attributes => rfl

end Found

theorem unescape_empty : Entity.unescape "" = "" := Entity.unescape_escape ""

theorem unescape_text (content : String) :
    Entity.unescape (String.ofList (charsOf [.text content])) = content := by
  have written : charsOf [.text content] = content.toList.flatMap Entity.escapeChar := by
    rw [charsOf, charsOf, List.append_nil, chars]
  rw [written]
  exact Entity.unescape_escape content

/-- In the text of a tree the elements of a name are counted at every depth, however names that
are longer, attributes and end tags stand between them. Where none stands inside another one, the
blocks are what the elements enclose as it is written, and the texts are that with its entities
resolved, so that a text that an element encloses alone is given back. -/
theorem elements_of_tree_found (tag : Name) (root : Node) :
    let xml := String.ofList root.chars
    let elements := root.named tag
    countElements xml tag.text = elements.length ∧
    (Flat tag [root] →
      elementBlocks xml tag.text = elements.filterMap inner? ∧
      elementTexts xml tag.text =
        elements.map fun element => Entity.unescape (element.inner?.getD "")) ∧
    ∀ name attributes content,
      (Node.element name attributes [.text content]).inner?.map Entity.unescape = some content := by
  have whole : charsOf [root] = root.chars := by rw [charsOf, charsOf, List.append_nil]
  have elements : namedIn tag [root] = root.named tag := by
    rw [namedIn, namedIn, List.append_nil]
  intro xml found
  refine ⟨?_, ?_, ?_⟩
  · have count := countElements_charsOf tag [root]
    rwa [whole, elements] at count
  · intro flat
    have blocks := elementBlocks_charsOf flat
    have texts := elementTexts_charsOf flat
    rw [filterMap_namedIn, whole, elements] at blocks texts
    constructor
    · refine blocks.trans (List.filterMap_congr fun element _ => ?_)
      cases element.inner? <;> simp
    · rw [← List.filterMap_eq_map]
      refine texts.trans (List.filterMap_congr fun element _ => ?_)
      cases inner : element.inner? with
      | none => simp [inner, unescape_empty]
      | some text => simp [inner]
  · intro name attributes content
    exact congrArg some (unescape_text content)

/-- An index with a longer name around the elements, an attribute that ends like a tag, and an
element that is written in one tag. -/
theorem sitemaps_of_index_found :
    let index : Name := ⟨"sitemapindex", by decide, by decide⟩
    let sitemap : Name := ⟨"sitemap", by decide, by decide⟩
    let id : Attribute := ⟨⟨"id", by decide, by decide⟩, '"', "a/", by decide, by decide⟩
    let root : Node := .element index []
      [.element sitemap [id] [.text "x & y"], .empty sitemap [], .element index [] []]
    Flat sitemap [root] ∧
      elementTexts (String.ofList root.chars) "sitemap" = ["x & y", ""] := by
  intro index sitemap id root
  have flat : Flat sitemap [root] := by
    intro name attributes children member
    simp [root, namedIn, named, index, sitemap] at member
    obtain ⟨-, -, rfl⟩ := member
    rfl
  have texts := ((elements_of_tree_found sitemap root).2.1 flat).2
  exact ⟨flat, texts.trans (by decide +kernel)⟩

end CrawlBoard.Xml.Node
