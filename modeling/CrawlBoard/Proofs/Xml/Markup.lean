import CrawlBoard.Proofs.Entity
import CrawlBoard.Proofs.Xml.Scan

namespace CrawlBoard.Xml

def isNameChar (char : Char) : Bool :=
  !(endsName char || char == '<' || char == '"' || char == '\'' || char == '&')

structure Name where
  text : String
  given : text.toList ≠ []
  plain : ∀ char ∈ text.toList, isNameChar char = true
  deriving DecidableEq

structure Attribute where
  name : Name
  quote : Char
  value : String
  quoted : quote = '"' ∨ quote = '\''
  plain : ∀ char ∈ value.toList, char ≠ '<' ∧ char ≠ '>' ∧ char ≠ quote

/-- Content of an element. An element without content is written in one tag or in two. -/
inductive Node where
  | text (content : String)
  | element (name : Name) (attributes : List Attribute) (children : List Node)
  | empty (name : Name) (attributes : List Attribute)

namespace Name

variable (name : Name)

def chars : List Char := name.text.toList

def opening (inside : List Char) : List Char := '<' :: (name.chars ++ inside ++ ['>'])

def closing : List Char := '<' :: '/' :: (name.chars ++ ['>'])

end Name

def Attribute.chars : Attribute → List Char
  | ⟨name, quote, value, _, _⟩ => ' ' :: (name.chars ++ '=' :: quote :: (value.toList ++ [quote]))

namespace Node

def attributeChars (attributes : List Attribute) : List Char := attributes.flatMap Attribute.chars

mutual

def chars : Node → List Char
  | .text content => content.toList.flatMap Entity.escapeChar
  | .element name attributes children =>
      name.opening (attributeChars attributes) ++ (charsOf children ++ name.closing)
  | .empty name attributes => name.opening (attributeChars attributes ++ ['/'])

def charsOf : List Node → List Char
  | [] => []
  | node :: nodes => node.chars ++ charsOf nodes

end

mutual

def named (tag : Name) : Node → List Node
  | .text _ => []
  | .element name attributes children =>
      (if name = tag then [.element name attributes children] else []) ++ namedIn tag children
  | .empty name attributes => if name = tag then [.empty name attributes] else []

def namedIn (tag : Name) : List Node → List Node
  | [] => []
  | node :: nodes => node.named tag ++ namedIn tag nodes

end

mutual

/-- The elements of a name in a text that `rest` follows, each with what stands behind its start
tag. -/
def located (tag : Name) (rest : List Char) : Node → List (Node × List Char)
  | .text _ => []
  | .element name attributes children =>
      (if name = tag then
        [(.element name attributes children, charsOf children ++ (name.closing ++ rest))] else [])
      ++ locatedIn tag (name.closing ++ rest) children
  | .empty name attributes => if name = tag then [(.empty name attributes, rest)] else []

def locatedIn (tag : Name) (rest : List Char) : List Node → List (Node × List Char)
  | [] => []
  | node :: nodes => located tag (charsOf nodes ++ rest) node ++ locatedIn tag rest nodes

end

end Node

theorem starts_append {front : List Char} (free : '<' ∉ front) (tag rest : List Char) :
    starts tag (front ++ rest) = starts tag rest := by
  induction front with
  | nil => rfl
  | cons char front ih =>
      have none : startTag? tag (char :: (front ++ rest)) = none := by
        unfold startTag?
        split
        · rename_i same
          exact absurd (List.cons.inj same).1 fun same => free (same ▸ List.mem_cons_self)
        · rfl
      rw [List.cons_append, starts, none, ih fun member => free (List.mem_cons_of_mem _ member)]
      rfl

namespace Name

variable {name tag : Name}

theorem not_mem {char : Char} (mark : isNameChar char = false) : char ∉ name.chars :=
  fun member => by simp [name.plain char member] at mark

theorem noOpening (name : Name) : '<' ∉ name.chars := not_mem (by decide)

theorem isPrefixOf_slash (name : Name) (rest : List Char) :
    name.chars.isPrefixOf ('/' :: rest) = false := by
  have noSlash : '/' ∉ name.chars := not_mem (by decide)
  cases shape : name.chars with
  | nil => exact absurd shape name.given
  | cons first chars =>
      have other : (first == '/') = false := by
        simpa using fun same : first = '/' => noSlash (shape ▸ same ▸ List.mem_cons_self)
      simp [List.isPrefixOf, other]

theorem takeWhile_chars (name : Name) {mark : Char} (ends : endsName mark = true)
    (rest : List Char) :
    (name.chars ++ mark :: rest).takeWhile (fun char => !endsName char) = name.chars := by
  have inName : ∀ char ∈ name.chars, (!endsName char) = true := fun char member => by
    have plain := name.plain char member
    simp only [isNameChar, Bool.not_eq_true', Bool.or_eq_false_iff] at plain
    simp [plain.1.1.1.1]
  rw [List.takeWhile_append_of_pos inName, List.takeWhile_cons_of_neg (by simp [ends]),
    List.append_nil]

theorem eq_of_append {first second : Char} {restFirst restSecond : List Char}
    (endsFirst : endsName first = true) (endsSecond : endsName second = true)
    (same : name.chars ++ first :: restFirst = tag.chars ++ second :: restSecond) : name = tag := by
  have chars : name.chars = tag.chars := by
    rw [← name.takeWhile_chars endsFirst restFirst, same, tag.takeWhile_chars endsSecond]
  obtain ⟨text, _, _⟩ := name
  obtain ⟨other, _, _⟩ := tag
  obtain rfl : text = other := String.toList_inj.mp chars
  rfl

end Name

/-- What stands between the name and the bracket of a start tag. -/
structure Inside (inside : List Char) : Prop where
  noOpening : '<' ∉ inside
  noClosing : '>' ∉ inside
  apart : inside.head?.all endsName = true

theorem Inside.append {inside : List Char} (valid : Inside inside) {mark : Char} (other : mark ≠ '<')
    (otherToo : mark ≠ '>') (ends : inside = [] → endsName mark = true) :
    Inside (inside ++ [mark]) := by
  obtain ⟨noOpening, noClosing, apart⟩ := valid
  refine ⟨by simp [noOpening, other.symm], by simp [noClosing, otherToo.symm], ?_⟩
  cases inside with
  | nil => exact ends rfl
  | cons first inside => exact apart

section Pieces

variable {name tag : Name} {inside : List Char}

theorem Inside.ends (valid : Inside inside) (rest : List Char) :
    ∃ mark tail, inside ++ '>' :: rest = mark :: tail ∧ endsName mark = true := by
  cases inside with
  | nil => exact ⟨_, _, rfl, rfl⟩
  | cons mark inside => exact ⟨_, _, rfl, valid.apart⟩

theorem startTag?_opening (valid : Inside inside) (rest : List Char) :
    startTag? tag.chars (name.opening inside ++ rest) =
      if name = tag then some (inside, rest) else none := by
  have shape : name.opening inside ++ rest = '<' :: (name.chars ++ (inside ++ '>' :: rest)) := by
    simp [Name.opening]
  obtain ⟨mark, tail, behind, ends⟩ := valid.ends rest
  rw [shape, startTag?]
  by_cases same : name = tag
  · subst same
    have begins : name.chars.isPrefixOf (name.chars ++ (inside ++ '>' :: rest)) = true :=
      List.isPrefixOf_iff_prefix.mpr ⟨_, rfl⟩
    rw [List.drop_left, if_pos ⟨begins, by rw [behind]; exact ends⟩,
      Search.cut?_singleton valid.noClosing, if_pos rfl]
  · rw [if_neg same, if_neg]
    rintro ⟨begins, endsToo⟩
    obtain ⟨after, append⟩ := List.isPrefixOf_iff_prefix.mp begins
    rw [← append, List.drop_left] at endsToo
    cases after with
    | nil => cases endsToo
    | cons first after => exact same (Name.eq_of_append ends endsToo (behind ▸ append.symm))

theorem starts_opening (valid : Inside inside) (rest : List Char) :
    starts tag.chars (name.opening inside ++ rest) =
      (if name = tag then [(inside, rest)] else []) ++ starts tag.chars rest := by
  have free : '<' ∉ name.chars ++ inside ++ ['>'] := by
    simp [name.noOpening, valid.noOpening]
  have behind := starts_append free tag.chars rest
  have found : startTag? tag.chars (name.opening inside ++ rest) = _ :=
    startTag?_opening valid rest
  rw [Name.opening, List.cons_append] at found ⊢
  rw [starts, found, behind]
  split <;> rfl

theorem starts_closing (rest : List Char) :
    starts tag.chars (name.closing ++ rest) = starts tag.chars rest := by
  have free : '<' ∉ '/' :: (name.chars ++ ['>']) := by
    simp [name.noOpening]
  have behind := starts_append free tag.chars rest
  have none : startTag? tag.chars ('<' :: ('/' :: (name.chars ++ ['>']) ++ rest)) = none := by
    rw [List.cons_append, startTag?, if_neg]
    simp [tag.isPrefixOf_slash]
  rw [Name.closing, List.cons_append, starts, none, behind]
  rfl

theorem cut?_piece {body : List Char} (free : '<' ∉ body) (rest : List Char)
    (other : tag.closing.isPrefixOf ('<' :: (body ++ rest)) = false) :
    Search.cut? tag.closing ('<' :: (body ++ rest)) =
      (Search.cut? tag.closing rest).map fun (front, back) => ('<' :: (body ++ front), back) := by
  rw [Search.cut?_of_other other, Name.closing, Search.cut?_append free, Option.map_map]
  rfl

theorem cut?_opening (valid : Inside inside) (rest : List Char) :
    Search.cut? tag.closing (name.opening inside ++ rest) =
      (Search.cut? tag.closing rest).map
        fun (front, back) => (name.opening inside ++ front, back) := by
  have free : '<' ∉ name.chars ++ inside ++ ['>'] := by
    simp [name.noOpening, valid.noOpening]
  have noSlash : '/' ∉ name.chars := Name.not_mem (by decide)
  refine cut?_piece free rest ?_
  cases shape : name.chars with
  | nil => exact absurd shape name.given
  | cons first chars =>
      have other : ('/' == first) = false := by
        simpa using fun same : '/' = first => noSlash (shape ▸ same ▸ List.mem_cons_self)
      simp [Name.closing, List.isPrefixOf, other]

theorem cut?_closing (rest : List Char) :
    Search.cut? tag.closing (tag.closing ++ rest) = some ([], rest) := by
  have begins : tag.closing.isPrefixOf (tag.closing ++ rest) = true :=
    List.isPrefixOf_iff_prefix.mpr ⟨_, rfl⟩
  refine (Search.cut?_of_begins begins).trans ?_
  have behind : (tag.closing ++ rest).drop tag.closing.length = rest := List.drop_left
  exact congrArg (fun back => some ([], back)) behind

theorem cut?_closing_of_ne (other : name ≠ tag) (rest : List Char) :
    Search.cut? tag.closing (name.closing ++ rest) =
      (Search.cut? tag.closing rest).map fun (front, back) => (name.closing ++ front, back) := by
  have free : '<' ∉ '/' :: (name.chars ++ ['>']) := by
    simp [name.noOpening]
  refine cut?_piece free rest (Bool.not_eq_true _ ▸ fun begins => other ?_)
  obtain ⟨after, append⟩ := List.isPrefixOf_iff_prefix.mp begins
  have same : name.chars ++ '>' :: rest = tag.chars ++ '>' :: after := by
    simpa [Name.closing] using append.symm
  exact Name.eq_of_append (by decide) (by decide) same

end Pieces

namespace Node

def inside : Node → List Char
  | .text _ => []
  | .element _ attributes _ => attributeChars attributes
  | .empty _ attributes => attributeChars attributes ++ ['/']

theorem inside_attributes (attributes : List Attribute) : Inside (attributeChars attributes) := by
  have marks (name : Name) : '<' ∉ name.chars ∧ '>' ∉ name.chars :=
    ⟨name.noOpening, Name.not_mem (by decide)⟩
  have parts : ∀ char ∈ attributeChars attributes, char ≠ '<' ∧ char ≠ '>' := by
    intro char member
    obtain ⟨⟨name, quote, value, quoted, plain⟩, present, member⟩ := List.mem_flatMap.mp member
    simp only [Attribute.chars, List.mem_cons, List.mem_append, List.not_mem_nil, or_false] at member
    rcases member with rfl | inName | rfl | rfl | inValue | rfl
    · decide
    · exact ⟨fun same => (marks name).1 (same ▸ inName), fun same => (marks name).2 (same ▸ inName)⟩
    · decide
    · rcases quoted with rfl | rfl <;> decide
    · exact ⟨(plain char inValue).1, (plain char inValue).2.1⟩
    · rcases quoted with rfl | rfl <;> decide
  refine ⟨fun member => (parts _ member).1 rfl, fun member => (parts _ member).2 rfl, ?_⟩
  cases attributes with
  | nil => rfl
  | cons first attributes => rfl

theorem inside_empty (attributes : List Attribute) :
    Inside (attributeChars attributes ++ ['/']) :=
  (inside_attributes attributes).append (by decide) (by decide) fun _ => rfl

theorem free_text (content : String) : '<' ∉ content.toList.flatMap Entity.escapeChar := by
  intro member
  obtain ⟨char, -, member⟩ := List.mem_flatMap.mp member
  unfold Entity.escapeChar at member
  split at member
  case h_6 other _ _ _ _ => exact other (List.mem_singleton.mp member).symm
  all_goals exact absurd member (by decide)

mutual

theorem starts_chars (tag : Name) (rest : List Char) : (node : Node) →
    starts tag.chars (node.chars ++ rest) =
      (located tag rest node).map (fun found => (found.1.inside, found.2)) ++ starts tag.chars rest
  | .text content => starts_append (free_text content) tag.chars rest
  | .element name attributes children => by
      have below := starts_charsOf tag (name.closing ++ rest) children
      rw [starts_closing] at below
      rw [chars, List.append_assoc, List.append_assoc, starts_opening (inside_attributes attributes),
        below, located]
      split <;> simp [inside]
  | .empty name attributes => by
      rw [chars, starts_opening (inside_empty attributes), located]
      split <;> simp [inside]

theorem starts_charsOf (tag : Name) (rest : List Char) : (nodes : List Node) →
    starts tag.chars (charsOf nodes ++ rest) =
      (locatedIn tag rest nodes).map (fun found => (found.1.inside, found.2)) ++ starts tag.chars rest
  | [] => rfl
  | node :: nodes => by
      rw [charsOf, List.append_assoc, starts_chars tag _ node, starts_charsOf tag rest nodes,
        locatedIn, List.map_append, List.append_assoc]

end

mutual

theorem map_fst_located (tag : Name) (rest : List Char) : (node : Node) →
    (located tag rest node).map (·.1) = node.named tag
  | .text _ => rfl
  | .element name attributes children => by
      rw [located, named, List.map_append, map_fst_locatedIn tag _ children]
      split <;> rfl
  | .empty name attributes => by
      rw [located, named]
      split <;> rfl

theorem map_fst_locatedIn (tag : Name) (rest : List Char) : (nodes : List Node) →
    (locatedIn tag rest nodes).map (·.1) = namedIn tag nodes
  | [] => rfl
  | node :: nodes => by
      rw [locatedIn, namedIn, List.map_append, map_fst_located tag _ node,
        map_fst_locatedIn tag rest nodes]

end

/-- What stands behind the start tag of an element: its children and its end tag, if it has one. -/
def Precedes (tag : Name) (after : List Char) : Node → Prop
  | .text _ => False
  | .element name _ children => name = tag ∧ ∃ back, after = charsOf children ++ (tag.closing ++ back)
  | .empty name _ => name = tag

mutual

theorem precedes_of_located (tag : Name) (rest : List Char) : (node : Node) →
    ∀ found ∈ located tag rest node, found.1.Precedes tag found.2
  | .text _ => fun _ member => by cases member
  | .element name attributes children => fun found member => by
      rw [located, List.mem_append] at member
      rcases member with here | below
      · split at here
        · rename_i same
          rw [List.mem_singleton.mp here]
          exact ⟨same, rest, same ▸ rfl⟩
        · cases here
      · exact precedes_of_locatedIn tag _ children found below
  | .empty name attributes => fun found member => by
      rw [located] at member
      split at member
      · rename_i same
        rw [List.mem_singleton.mp member]
        exact same
      · cases member

theorem precedes_of_locatedIn (tag : Name) (rest : List Char) : (nodes : List Node) →
    ∀ found ∈ locatedIn tag rest nodes, found.1.Precedes tag found.2
  | [] => fun _ member => by cases member
  | node :: nodes => fun found member => by
      rw [locatedIn, List.mem_append] at member
      rcases member with first | later
      · exact precedes_of_located tag _ node found first
      · exact precedes_of_locatedIn tag rest nodes found later

end

mutual

theorem cut?_chars (tag : Name) (rest : List Char) : (node : Node) → node.named tag = [] →
    Search.cut? tag.closing (node.chars ++ rest) =
      (Search.cut? tag.closing rest).map fun (front, back) => (node.chars ++ front, back)
  | .text content => fun _ => Search.cut?_append (free_text content) rest
  | .element name attributes children => fun missing => by
      rw [named, List.append_eq_nil_iff] at missing
      have other : name ≠ tag := fun same => by
        rw [if_pos same] at missing
        cases missing.1
      rw [chars, List.append_assoc, List.append_assoc, cut?_opening (inside_attributes attributes),
        cut?_charsOf tag _ children missing.2, cut?_closing_of_ne other, Option.map_map,
        Option.map_map]
      simp [Function.comp_def]
  | .empty name attributes => fun _ => by
      rw [chars, cut?_opening (inside_empty attributes)]

theorem cut?_charsOf (tag : Name) (rest : List Char) : (nodes : List Node) → namedIn tag nodes = [] →
    Search.cut? tag.closing (charsOf nodes ++ rest) =
      (Search.cut? tag.closing rest).map fun (front, back) => (charsOf nodes ++ front, back)
  | [] => fun _ => by simp [charsOf]
  | node :: nodes => fun missing => by
      rw [namedIn, List.append_eq_nil_iff] at missing
      rw [charsOf, List.append_assoc, cut?_chars tag _ node missing.1,
        cut?_charsOf tag rest nodes missing.2, Option.map_map]
      simp [Function.comp_def]

end

end Node

end CrawlBoard.Xml
