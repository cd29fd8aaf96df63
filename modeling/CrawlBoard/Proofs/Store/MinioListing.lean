import CrawlBoard.Proofs.Time.Rfc3339
import CrawlBoard.Proofs.Xml.Elements
import CrawlBoard.Store.Minio
/-!
Listings as an S3-compatible server writes them: what belongs to the page stands between any
elements of other names, at both levels and in any order, and is read back.
-/

namespace CrawlBoard

open Xml (Name Attribute Node)

namespace MinioStore.Listing

namespace Tag

def root : Name := ⟨"ListBucketResult", by decide, by decide⟩

def contents : Name := ⟨"Contents", by decide, by decide⟩

def key : Name := ⟨"Key", by decide, by decide⟩

def lastModified : Name := ⟨"LastModified", by decide, by decide⟩

def isTruncated : Name := ⟨"IsTruncated", by decide, by decide⟩

def nextToken : Name := ⟨"NextContinuationToken", by decide, by decide⟩

def declaration : Name := ⟨"?xml", by decide, by decide⟩

def all : List Name := [contents, key, lastModified, isTruncated, nextToken]

theorem root_ne {tag : Name} (ofPages : tag ∈ all) : root ≠ tag := by
  revert tag
  decide

theorem declaration_ne {tag : Name} (ofPages : tag ∈ all) : declaration ≠ tag := by
  revert tag
  decide

end Tag

/-- Text, or an element that uses none of the names of a page at any depth. -/
def Foreign (node : Node) : Prop := ∀ tag ∈ Tag.all, node.named tag = []

instance (node : Node) : Decidable (Foreign node) :=
  inferInstanceAs (Decidable (∀ tag ∈ Tag.all, node.named tag = []))

def leaf (name : Name) (attributes : List Attribute) (content : String) : Node :=
  .element name attributes [.text content]

inductive EntryNodes : Option String → Option Instant → List Node → Prop
  | done : EntryNodes none none []
  | other {key? : Option String} {updated? : Option Instant} {nodes : List Node} (node : Node)
      (foreign : Foreign node) (others : EntryNodes key? updated? nodes) :
      EntryNodes key? updated? (node :: nodes)
  | key {updated? : Option Instant} {nodes : List Node} (attributes : List Attribute) (text : String)
      (others : EntryNodes none updated? nodes) :
      EntryNodes (some text) updated? (leaf Tag.key attributes text :: nodes)
  | updated {key? : Option String} {nodes : List Node} {instant : Instant} {text : String}
      (attributes : List Attribute) (writes : Rfc3339.Writes instant text)
      (others : EntryNodes key? none nodes) :
      EntryNodes key? (some instant) (leaf Tag.lastModified attributes text :: nodes)

inductive PageNodes : List ObjectEntry → Option String → Option String → List Node → Prop
  | done : PageNodes [] none none []
  | other {entries : List ObjectEntry} {flag? token? : Option String} {nodes : List Node}
      (node : Node) (foreign : Foreign node) (others : PageNodes entries flag? token? nodes) :
      PageNodes entries flag? token? (node :: nodes)
  | entry {entry : ObjectEntry} {entries : List ObjectEntry} {flag? token? : Option String}
      {children nodes : List Node} (attributes : List Attribute)
      (inside : EntryNodes (some entry.key) entry.updated? children)
      (others : PageNodes entries flag? token? nodes) :
      PageNodes (entry :: entries) flag? token? (.element Tag.contents attributes children :: nodes)
  | flag {entries : List ObjectEntry} {token? : Option String} {nodes : List Node}
      (attributes : List Attribute) (text : String) (others : PageNodes entries none token? nodes) :
      PageNodes entries (some text) token? (leaf Tag.isTruncated attributes text :: nodes)
  | token {entries : List ObjectEntry} {flag? : Option String} {nodes : List Node}
      (attributes : List Attribute) (text : String) (others : PageNodes entries flag? none nodes) :
      PageNodes entries flag? (some text) (leaf Tag.nextToken attributes text :: nodes)

def declaration (attributes : List Attribute) : List Char :=
  if attributes.isEmpty then []
  else Tag.declaration.opening (Node.attributeChars attributes ++ ['?']) ++ ['\n']

/-- The elements of a name are leaves with the given texts. -/
def Leaves (tag : Name) (nodes : List Node) (texts : List String) : Prop :=
  ∃ leaves : List (List Attribute × String),
    Node.namedIn tag nodes = leaves.map (fun found => leaf tag found.1 found.2) ∧
      leaves.map (·.2) = texts

namespace Leaves

variable {tag : Name} {node : Node} {nodes : List Node} {texts : List String}

theorem nil (tag : Name) : Leaves tag [] [] := ⟨[], rfl, rfl⟩

theorem skip (leaves : Leaves tag nodes texts) (missing : node.named tag = []) :
    Leaves tag (node :: nodes) texts := by
  obtain ⟨found, named, same⟩ := leaves
  exact ⟨found, by rw [Node.namedIn, missing, named]; rfl, same⟩

theorem cons (leaves : Leaves tag nodes texts) (attributes : List Attribute) (text : String) :
    Leaves tag (leaf tag attributes text :: nodes) (text :: texts) := by
  obtain ⟨found, named, same⟩ := leaves
  refine ⟨(attributes, text) :: found, ?_, congrArg (text :: ·) same⟩
  rw [Node.namedIn, named, leaf, Node.named, if_pos rfl]
  rfl

theorem skip_leaf {name : Name} (leaves : Leaves tag nodes texts) (other : name ≠ tag)
    (attributes : List Attribute) (text : String) :
    Leaves tag (leaf name attributes text :: nodes) texts := by
  refine leaves.skip ?_
  rw [leaf, Node.named, if_neg other]
  rfl

theorem flat (leaves : Leaves tag nodes texts) : Node.Flat tag nodes := by
  obtain ⟨found, named, -⟩ := leaves
  intro name attributes children member
  rw [named] at member
  obtain ⟨⟨_, text⟩, -, same⟩ := List.mem_map.mp member
  cases same
  rfl

theorem elementTexts (leaves : Leaves tag nodes texts) :
    Xml.elementTexts (String.ofList (Node.charsOf nodes)) tag.text = texts := by
  rw [Node.elementTexts_charsOf leaves.flat]
  obtain ⟨found, named, rfl⟩ := leaves
  have value (found : List Attribute × String) :
      Node.part? (some "") (fun text => Entity.unescape (String.ofList text))
        (leaf tag found.1 found.2) = some found.2 := by
    have back := Entity.unescape_escape found.2
    rw [Entity.escape] at back
    simp only [leaf, Node.part?, Node.charsOf, Node.chars, List.append_nil, back]
  rw [named, List.filterMap_map, ← List.filterMap_eq_map]
  exact congrArg (List.filterMap · found) (funext value)

end Leaves

namespace EntryNodes

variable {key? : Option String} {updated? : Option Instant} {nodes : List Node}

theorem leaves_key (inside : EntryNodes key? updated? nodes) : Leaves Tag.key nodes key?.toList := by
  induction inside with
  | done => exact .nil _
  | other _ foreign others ih => exact ih.skip (foreign _ (by decide))
  | key attributes text others ih => exact ih.cons attributes text
  | updated attributes writes others ih => exact ih.skip_leaf (by decide) attributes _

theorem leaves_lastModified (inside : EntryNodes key? updated? nodes) :
    ∃ texts, Leaves Tag.lastModified nodes texts ∧
      texts.map Rfc3339.parse? = updated?.toList.map some := by
  induction inside with
  | done => exact ⟨[], .nil _, rfl⟩
  | other _ foreign others ih =>
      obtain ⟨texts, leaves, read⟩ := ih
      exact ⟨texts, leaves.skip (foreign _ (by decide)), read⟩
  | key attributes text others ih =>
      obtain ⟨texts, leaves, read⟩ := ih
      exact ⟨texts, leaves.skip_leaf (by decide) attributes text, read⟩
  | updated attributes writes others ih =>
      obtain ⟨texts, leaves, read⟩ := ih
      refine ⟨_, leaves.cons attributes _, ?_⟩
      rw [List.map_cons, writes.parse?, read]
      rfl

theorem namedIn_eq_nil (inside : EntryNodes key? updated? nodes) {tag : Name}
    (ofPage : tag ∈ [Tag.contents, Tag.isTruncated, Tag.nextToken]) : Node.namedIn tag nodes = [] := by
  have listed : tag ∈ Tag.all := by
    simp only [Tag.all, List.mem_cons, List.not_mem_nil, or_false] at ofPage ⊢
    grind
  have apart : Tag.key ≠ tag ∧ Tag.lastModified ≠ tag := by
    revert tag
    decide
  induction inside with
  | done => rfl
  | other _ foreign others ih => rw [Node.namedIn, foreign tag listed, ih]; rfl
  | key attributes text others ih =>
      rw [Node.namedIn, ih, leaf, Node.named, if_neg apart.1]
      rfl
  | updated attributes writes others ih =>
      rw [Node.namedIn, ih, leaf, Node.named, if_neg apart.2]
      rfl

theorem entry?_charsOf {entry : ObjectEntry}
    (inside : EntryNodes (some entry.key) entry.updated? nodes) :
    entry? (String.ofList (Node.charsOf nodes)) = some entry := by
  obtain ⟨texts, leaves, read⟩ := inside.leaves_lastModified
  have keys : Xml.elementTexts (String.ofList (Node.charsOf nodes)) "Key" = [entry.key] :=
    inside.leaves_key.elementTexts
  have times : Xml.elementTexts (String.ofList (Node.charsOf nodes)) "LastModified" = texts :=
    leaves.elementTexts
  have time : texts.head?.bind Rfc3339.parse? = entry.updated? :=
    calc
      _ = (texts.map Rfc3339.parse?).head?.join := by cases texts <;> rfl
      _ = entry.updated? := by
        rw [read]
        cases entry.updated? <;> rfl
  unfold entry? Xml.firstElementText?
  rw [keys, times, time]
  rfl

end EntryNodes

namespace PageNodes

variable {entries : List ObjectEntry} {flag? token? : Option String} {nodes : List Node}

theorem leaves_isTruncated (inside : PageNodes entries flag? token? nodes) :
    Leaves Tag.isTruncated nodes flag?.toList := by
  induction inside with
  | done => exact .nil _
  | other _ foreign others ih => exact ih.skip (foreign _ (by decide))
  | entry attributes inside others ih =>
      refine ih.skip ?_
      rw [Node.named, if_neg (by decide), inside.namedIn_eq_nil (by decide)]
      rfl
  | flag attributes text others ih => exact ih.cons attributes text
  | token attributes text others ih => exact ih.skip_leaf (by decide) attributes text

theorem leaves_nextToken (inside : PageNodes entries flag? token? nodes) :
    Leaves Tag.nextToken nodes token?.toList := by
  induction inside with
  | done => exact .nil _
  | other _ foreign others ih => exact ih.skip (foreign _ (by decide))
  | entry attributes inside others ih =>
      refine ih.skip ?_
      rw [Node.named, if_neg (by decide), inside.namedIn_eq_nil (by decide)]
      rfl
  | flag attributes text others ih => exact ih.skip_leaf (by decide) attributes text
  | token attributes text others ih => exact ih.cons attributes text

theorem flat_contents (inside : PageNodes entries flag? token? nodes) :
    Node.Flat Tag.contents nodes := by
  intro name attributes children member
  induction inside with
  | done => cases member
  | other _ foreign others ih =>
      rw [Node.namedIn, foreign _ (by decide)] at member
      exact ih member
  | entry _ inside others ih =>
      rw [Node.namedIn, Node.named, if_pos rfl, inside.namedIn_eq_nil (by decide), List.append_nil,
        List.singleton_append, List.mem_cons] at member
      rcases member with same | later
      · cases same
        exact inside.namedIn_eq_nil (by decide)
      · exact ih later
  | flag _ text others ih =>
      rw [Node.namedIn, leaf, Node.named, if_neg (by decide)] at member
      exact ih member
  | token _ text others ih =>
      rw [Node.namedIn, leaf, Node.named, if_neg (by decide)] at member
      exact ih member

theorem entries_read (inside : PageNodes entries flag? token? nodes) :
    ((Node.namedIn Tag.contents nodes).filterMap (Node.part? none String.ofList)).filterMap entry? =
      entries := by
  induction inside with
  | done => rfl
  | other _ foreign others ih =>
      rw [Node.namedIn, foreign _ (by decide)]
      exact ih
  | entry _ inside others ih =>
      rw [Node.namedIn, Node.named, if_pos rfl, inside.namedIn_eq_nil (by decide), List.append_nil,
        List.singleton_append]
      simp only [List.filterMap_cons, Node.part?, inside.entry?_charsOf, ih]
  | flag _ text others ih =>
      rw [Node.namedIn, leaf, Node.named, if_neg (by decide)]
      exact ih
  | token _ text others ih =>
      rw [Node.namedIn, leaf, Node.named, if_neg (by decide)]
      exact ih

end PageNodes

section Document

variable {tag : Name} (version attributes : List Attribute) (children : List Node)

theorem starts_declaration (ofPages : tag ∈ Tag.all) (rest : List Char) :
    Xml.starts tag.chars (declaration version ++ rest) = Xml.starts tag.chars rest := by
  unfold declaration
  split
  · rfl
  · rename_i given
    have inside : Xml.Inside (Node.attributeChars version ++ ['?']) := by
      refine (Node.inside_attributes version).append (by decide) (by decide) fun none => ?_
      cases version with
      | nil => exact absurd rfl given
      | cons first version => cases none
    rw [List.append_assoc, Xml.starts_opening inside, if_neg (Tag.declaration_ne ofPages),
      List.nil_append, Xml.starts_append (by decide)]

theorem namedIn_root (ofPages : tag ∈ Tag.all) :
    Node.namedIn tag [.element Tag.root attributes children] = Node.namedIn tag children := by
  rw [Node.namedIn, Node.named, if_neg (Tag.root_ne ofPages), Node.namedIn, List.append_nil,
    List.nil_append]

def document : String :=
  String.ofList (declaration version ++ Node.charsOf [.element Tag.root attributes children])

variable {children}

/-- What stands in a document is found as if the root and the declaration were not there. -/
theorem elementTexts_document (ofPages : tag ∈ Tag.all) {texts : List String}
    (leaves : Leaves tag children texts) :
    Xml.elementTexts (document version attributes children) tag.text = texts := by
  have inside : Leaves tag [.element Tag.root attributes children] texts := by
    unfold Leaves
    rwa [namedIn_root attributes children ofPages]
  rw [← inside.elementTexts, Xml.elementTexts_eq tag.noOpening, Xml.elementTexts_eq tag.noOpening,
    document, String.toList_ofList, String.toList_ofList]
  exact congrArg (List.filterMap _) (starts_declaration version ofPages _)

theorem elementBlocks_document (ofPages : tag ∈ Tag.all) (flat : Node.Flat tag children) :
    Xml.elementBlocks (document version attributes children) tag.text =
      (Node.namedIn tag children).filterMap (Node.part? none String.ofList) := by
  have inside : Node.Flat tag [.element Tag.root attributes children] := by
    unfold Node.Flat
    rwa [namedIn_root attributes children ofPages]
  rw [← namedIn_root attributes children ofPages, ← Node.elementBlocks_charsOf inside,
    Xml.elementBlocks_eq tag.noOpening, Xml.elementBlocks_eq tag.noOpening, document,
    String.toList_ofList, String.toList_ofList]
  exact congrArg (List.filterMap _) (starts_declaration version ofPages _)

theorem contains_document (children : List Node) :
    Search.contains "<ListBucketResult".toList (document version attributes children).toList =
      true := by
  have shape : (document version attributes children).toList = declaration version
      ++ ("<ListBucketResult".toList ++ (Node.attributeChars attributes ++ ['>']
        ++ (Node.charsOf children ++ Tag.root.closing))) := by
    have name : "<ListBucketResult".toList = '<' :: Tag.root.chars := rfl
    rw [document, String.toList_ofList, Node.charsOf, Node.chars, Node.charsOf, List.append_nil,
      Name.opening, name]
    simp
  rw [shape]
  exact Search.contains_append _ _ _

end Document

inductive Writes (page : ObjectPage) : String → Prop
  | document {flag? : Option String} {children : List Node} (version attributes : List Attribute)
      (inside : PageNodes page.entries flag? page.next? children)
      (truncated : flag? = some "true" ↔ page.next?.isSome) :
      Writes page (document version attributes children)

end MinioStore.Listing

theorem MinioStore.parsePage_of_writes {page : ObjectPage} {xml : String}
    (writes : Listing.Writes page xml) (given : ∀ token ∈ page.next?, token ≠ "") :
    parsePage xml = .ok page := by
  obtain ⟨version, attributes, inside, truncated⟩ := writes
  rename_i flag? children
  let xml := Listing.document version attributes children
  have flag : Xml.firstElementText? xml "IsTruncated" = flag? :=
    (congrArg List.head? (Listing.elementTexts_document version attributes (by decide)
      inside.leaves_isTruncated)).trans Option.head?_toList
  have next : Xml.firstElementText? xml "NextContinuationToken" = page.next? :=
    (congrArg List.head? (Listing.elementTexts_document version attributes (by decide)
      inside.leaves_nextToken)).trans Option.head?_toList
  have blocks : (Xml.elementBlocks xml "Contents").filterMap entry? = page.entries :=
    (congrArg (List.filterMap entry?) (Listing.elementBlocks_document version attributes (by decide)
      inside.flat_contents)).trans inside.entries_read
  unfold parsePage
  rw [if_pos (Listing.contains_document version attributes children), flag, next, blocks,
    ObjectPage.filter_next? given]
  by_cases more : page.next?.isSome
  · simp only [truncated.mpr more, if_true]
  · have last : page.next? = none := Option.not_isSome_iff_eq_none.mp more
    have notTruncated : ¬ flag? = some "true" := fun told => more (truncated.mp told)
    simp only [notTruncated, if_false]
    rw [← last]

end CrawlBoard
