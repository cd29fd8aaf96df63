import CrawlBoard.Proofs.Json.WellFormed
import CrawlBoard.Proofs.Json.Writing
import Mathlib.Data.List.Perm.Basic
/-!
Trees in any layout: blanks may stand around every part, and the members of an object come in any
order. What a reader makes of a tree does not depend on it.
-/

namespace CrawlBoard.Json

open Utf8 (Bytes)

def Tree.isToken : Tree → Bool
  | .null | .bool _ | .natural _ | .real _ => true
  | .text _ | .list _ | .object _ => false

/-- Induction where the parts of a list or an object are any of its elements. -/
theorem Tree.induct {motive : Tree → Prop} (token : ∀ tree, tree.isToken = true → motive tree)
    (text : ∀ value, motive (.text value))
    (list : ∀ items, (∀ item ∈ items, motive item) → motive (.list items))
    (object : ∀ members, (∀ member ∈ members, motive member.2) → motive (.object members)) :
    ∀ tree, motive tree
  | .null => token _ rfl
  | .bool _ => token _ rfl
  | .natural _ => token _ rfl
  | .real _ => token _ rfl
  | .text value => text value
  | .list items => list items fun item _ => Tree.induct token text list object item
  | .object members => object members fun member _ => Tree.induct token text list object member.2
  termination_by tree => sizeOf tree
  decreasing_by
    · have smaller := List.sizeOf_lt_of_mem ‹item ∈ items›
      simp only [Tree.list.sizeOf_spec]
      omega
    · have smaller := List.sizeOf_lt_of_mem ‹member ∈ members›
      obtain ⟨name, tree⟩ := member
      simp only [Prod.mk.sizeOf_spec, Tree.object.sizeOf_spec] at smaller ⊢
      omega

theorem exists_pairs_of_map_eq {α β γ : Type} {f : α → γ} {g : β → γ} {first : List α}
    {second : List β} (same : first.map f = second.map g) :
    ∃ pairs : List (α × β), pairs.map Prod.fst = first ∧ pairs.map Prod.snd = second ∧
      ∀ pair ∈ pairs, f pair.1 = g pair.2 := by
  induction first generalizing second with
  | nil =>
      obtain rfl := List.map_eq_nil_iff.mp same.symm
      exact ⟨[], rfl, rfl, fun _ member => nomatch member⟩
  | cons a first ih =>
      cases second with
      | nil => cases same
      | cons b second =>
          obtain ⟨head, tail⟩ := List.cons.inj same
          obtain ⟨pairs, rfl, rfl, agree⟩ := ih tail
          exact ⟨(a, b) :: pairs, rfl, rfl, List.forall_mem_cons.mpr ⟨head, agree⟩⟩

theorem exists_perm_of_perm_map {α β : Type} {f : α → β} {images : List β} {items : List α}
    (moved : images.Perm (items.map f)) :
    ∃ given : List α, images = given.map f ∧ given.Perm items :=
  (congrFun (congrFun (List.eq_map_comp_perm f) images) items).mpr moved

/-- The bytes are a text of the tree. -/
inductive Tree.Writes : Tree → Bytes → Prop
  | token {tree : Tree} (isToken : tree.isToken = true) : Writes tree tree.bytes
  | text {value : String} {bytes : Bytes} (quoted : Quoted value bytes) : Writes (.text value) bytes
  | list {items : List Tree} (written : List (Tree × Bytes)) {bytes : Bytes}
      (values : ∀ part ∈ written, Writes part.1 part.2) (same : written.map Prod.fst = items)
      (listed : ListOf (written.map Prod.snd) bytes) : Writes (.list items) bytes
  | object {members : List (String × Tree)} (written : List (Tree × Member)) {bytes : Bytes}
      (values : ∀ part ∈ written, Writes part.1 part.2.value)
      (same : members.Perm (written.map fun part => (part.2.name, part.1)))
      (listed : ObjectOf (written.map Prod.snd) bytes) : Writes (.object members) bytes

theorem Tree.writes_bytes (tree : Tree) : tree.Writes tree.bytes := by
  induction tree using Tree.induct with
  | token tree isToken => exact .token isToken
  | text value => exact .text (quoted_text value)
  | list items ih =>
      refine .list (items.map fun item => (item, item.bytes)) ?_ ?_ ?_
      · intro part member
        obtain ⟨item, present, rfl⟩ := List.mem_map.mp member
        exact ih item present
      · rw [List.map_map]
        exact List.map_id items
      · rw [List.map_map]
        exact listOf items
  | object members ih =>
      refine .object (members.map fun member => (member.2, .compact member)) ?_ ?_ ?_
      · intro part member
        obtain ⟨pair, present, rfl⟩ := List.mem_map.mp member
        exact ih pair present
      · rw [List.map_map]
        exact .of_eq (List.map_id members).symm
      · rw [List.map_map]
        exact objectOf members

def margin (depth : Nat) : Bytes := 0x0A :: List.replicate (2 * depth) 0x20

theorem blanks_margin (depth : Nat) : Blanks (margin depth) := by
  intro byte member
  rcases List.mem_cons.mp member with rfl | space
  · rfl
  · rw [List.eq_of_mem_replicate space]
    rfl

theorem encode_indent (depth : Nat) : Utf8.encode (indent depth) = margin depth := by
  have line : Utf8.encode "\n" = [0x0A] := by
    rw [Utf8.encode_eq_flatMap]
    rfl
  have columns (count : Nat) :
      (List.replicate count ' ').flatMap String.utf8EncodeChar = List.replicate count 0x20 := by
    induction count with
    | zero => rfl
    | succ count ih =>
        rw [List.replicate_succ, List.flatMap_cons, ih]
        rfl
  rw [indent, Utf8.encode_append, line, Utf8.encode_ofList, columns]
  rfl

theorem separated_lines {first : Bool} {gap trail : Bytes} (before : Gap first gap)
    (trails : Blanks trail) (depth : Nat) (line : String) (lines : List String) :
    Separated first ((line :: lines).map Utf8.encode)
      (gap ++ (Utf8.encode (("," ++ indent depth).intercalate (line :: lines)) ++ trail)) := by
  have comma : Utf8.encode ("," ++ indent depth) = [] ++ 0x2C :: margin depth := by
    rw [Utf8.encode_append, encode_indent, Utf8.encode_eq_flatMap]
    rfl
  induction lines generalizing first gap line with
  | nil =>
      rw [String.intercalate_singleton]
      exact .part before (.done trails)
  | cons next lines ih =>
      rw [String.intercalate_cons_cons, Utf8.encode_append, Utf8.encode_append, comma,
        List.append_assoc, List.append_assoc]
      exact .part before (ih (.comma .nil (blanks_margin depth)) next)

theorem encode_block (left right : String) (depth : Nat) (lines : List String) :
    ∃ inside, Separated true (lines.map Utf8.encode) inside ∧
      Utf8.encode (block left right depth lines) =
        Utf8.encode left ++ (inside ++ Utf8.encode right) := by
  cases lines with
  | nil => exact ⟨[], .done .nil, Utf8.encode_append left right⟩
  | cons line lines =>
      refine ⟨_, separated_lines (.first (blanks_margin (depth + 1))) (blanks_margin depth)
        (depth + 1) line lines, ?_⟩
      simp only [block, List.isEmpty_cons, Bool.false_eq_true, if_false, Utf8.encode_append,
        encode_indent, List.append_assoc]

theorem prettyItems_eq (depth : Nat) (items : List Tree) :
    prettyItems depth items = items.map (Tree.prettyAt depth) := by
  induction items with
  | nil => rfl
  | cons item items ih => rw [prettyItems, ih, List.map_cons]

theorem prettyMembers_eq (depth : Nat) (members : List (String × Tree)) :
    prettyMembers depth members =
      members.map fun member => quote member.1 ++ ": " ++ member.2.prettyAt depth := by
  induction members with
  | nil => rfl
  | cons member members ih => rw [prettyMembers, ih, List.map_cons]

def Member.pretty (depth : Nat) (member : String × Tree) : Member where
  name := member.1
  quoted := escaped member.1
  written := writtenAll_name member
  trail := []
  trails := .nil
  lead := [0x20]
  leads := .space
  value := Utf8.encode (member.2.prettyAt depth)

theorem encode_prettyMembers (depth : Nat) (members : List (String × Tree)) :
    (prettyMembers depth members).map Utf8.encode =
      (members.map (Member.pretty depth)).map fun member => 0x22 :: member.bytes := by
  have colon : Utf8.encode ": " = [0x3A, 0x20] := by
    rw [Utf8.encode_eq_flatMap]
    rfl
  rw [prettyMembers_eq, List.map_map, List.map_map]
  refine List.map_congr_left fun member _ => ?_
  simp only [Function.comp, Utf8.encode_append, encode_quote, colon]
  simp [Member.bytes, Member.pretty]

theorem Tree.prettyAt_token {tree : Tree} (isToken : tree.isToken = true) (depth : Nat) :
    tree.prettyAt depth = tree.compact := by
  cases tree with
  | bool value => cases value <;> rfl
  | null | natural | real => rfl
  | text | list | object => cases isToken

theorem Tree.writes_pretty (tree : Tree) (depth : Nat) :
    tree.Writes (Utf8.encode (tree.prettyAt depth)) := by
  induction tree using Tree.induct generalizing depth with
  | token tree isToken =>
      rw [prettyAt_token isToken]
      exact .token isToken
  | text value => exact .text (quoted_quote value)
  | list items ih =>
      obtain ⟨inside, separated, shape⟩ :=
        encode_block "[" "]" depth (prettyItems (depth + 1) items)
      rw [prettyItems_eq] at separated
      refine .list (items.map fun item => (item, Utf8.encode (item.prettyAt (depth + 1)))) ?_ ?_ ?_
      · intro part member
        obtain ⟨item, present, rfl⟩ := List.mem_map.mp member
        exact ih item present (depth + 1)
      · rw [List.map_map]
        exact List.map_id items
      · rw [prettyAt, shape, encode_openBracket, encode_closeBracket]
        rw [List.map_map] at separated ⊢
        exact .brackets separated
  | object members ih =>
      obtain ⟨inside, separated, shape⟩ :=
        encode_block openBrace closeBrace depth (prettyMembers (depth + 1) members)
      rw [encode_prettyMembers] at separated
      refine .object (members.map fun member => (member.2, .pretty (depth + 1) member)) ?_ ?_ ?_
      · intro part member
        obtain ⟨pair, present, rfl⟩ := List.mem_map.mp member
        exact ih pair present (depth + 1)
      · rw [List.map_map]
        exact .of_eq (List.map_id members).symm
      · rw [prettyAt, shape, encode_openBrace, encode_closeBrace, List.map_map]
        exact .brackets separated

namespace Tree

variable {α : Type}

theorem Writes.token_bytes {tree : Tree} {bytes : Bytes} (writes : tree.Writes bytes)
    (isToken : tree.isToken = true) : bytes = tree.bytes := by
  cases writes with
  | token => rfl
  | text | list | object => cases isToken

theorem Writes.opens {tree : Tree} {bytes : Bytes} (writes : tree.Writes bytes)
    (bracketed : tree.isToken = false) : Opens bytes := by
  cases writes with
  | token isToken => exact Bool.noConfusion (isToken.symm.trans bracketed)
  | text quoted => exact opens_quoted quoted
  | list _ _ _ listed => exact opens_listOf listed
  | object _ _ _ listed => exact opens_objectOf listed

inductive Textual : Tree → Prop
  | text (value : String) : Textual (.text value)
  | list {items : List Tree} (values : ∀ item ∈ items, Textual item) : Textual (.list items)
  | object {members : List (String × Tree)} (values : ∀ member ∈ members, Textual member.2) :
      Textual (.object members)

theorem Textual.value {tree : Tree} (textual : tree.Textual) {bytes : Bytes}
    (writes : tree.Writes bytes) : Value bytes := by
  induction textual generalizing bytes with
  | text =>
      cases writes with
      | token isToken => cases isToken
      | text quoted => exact .text quoted
  | list _ ih =>
      cases writes with
      | token isToken => cases isToken
      | list written values same listed =>
          refine .list (fun part member => ?_) listed
          obtain ⟨pair, present, rfl⟩ := List.mem_map.mp member
          exact ih pair.1 (same ▸ List.mem_map_of_mem present) (values pair present)
  | object _ ih =>
      cases writes with
      | token isToken => cases isToken
      | object written values same listed =>
          refine .object (fun part member => ?_) listed
          obtain ⟨pair, present, rfl⟩ := List.mem_map.mp member
          exact ih _ (same.mem_iff.mpr (List.mem_map_of_mem present)) (values pair present)

theorem Textual.passes {tree : Tree} (textual : tree.Textual) (bytes : Bytes)
    (writes : tree.Writes bytes) : Passes bytes :=
  (textual.value writes).passes

/-- Every text of the tree is read as `a`. -/
def ReadAs (tree : Tree) (read : Reader α) (a : α) : Prop :=
  ∀ bytes, tree.Writes bytes → Reads read bytes a

namespace ReadAs

theorem text (value : String) : (Tree.text value).ReadAs Json.text value := by
  intro bytes writes
  cases writes with
  | token isToken => cases isToken
  | text quoted => exact .text quoted

theorem natural {limit number : Nat} (expected : String) (fits : number ≤ limit)
    (word : limit ≤ maxWord) :
    (Tree.natural number).ReadAs (Json.natural limit expected) number := by
  intro bytes writes
  cases writes with
  | token => exact Tree.bytes_natural number ▸ .natural expected fits word

theorem variant {variants : List (String × α)} {name : String} {chosen : α}
    (known : variants.lookup name = some chosen) :
    (Tree.text name).ReadAs (Json.variant variants) chosen := by
  intro bytes writes
  cases writes with
  | token isToken => cases isToken
  | text quoted => exact .variant known quoted

theorem optional {tree : Tree} {read : Reader α} {a : α} (readAs : tree.ReadAs read a)
    (bracketed : tree.isToken = false) : tree.ReadAs (Json.optional read) (some a) :=
  fun bytes writes => (readAs bytes writes).optional (writes.opens bracketed)

theorem list {read : Reader α} (write : α → Tree) (items : List α)
    (readAs : ∀ item ∈ items, (write item).ReadAs read item)
    (bracketed : ∀ item ∈ items, (write item).isToken = false) :
    (Tree.list (items.map write)).ReadAs (Json.list read) items := by
  intro bytes writes
  cases writes with
  | token isToken => cases isToken
  | list written values same listed =>
      obtain ⟨pairs, rfl, rfl, agree⟩ := exists_pairs_of_map_eq same.symm
      have writes (pair : α × (Tree × Bytes)) (member : pair ∈ pairs) :
          (write pair.1).Writes pair.2.2 :=
        agree pair member ▸ values pair.2 (List.mem_map_of_mem member)
      rw [List.map_map] at listed
      exact .list (fun pair => pair.2.2) Prod.fst pairs
        (fun pair member => readAs _ (List.mem_map_of_mem member) _ (writes pair member))
        (fun pair member =>
          (writes pair member).opens (bracketed _ (List.mem_map_of_mem member))) listed

end ReadAs

end Tree

end CrawlBoard.Json
