import CrawlBoard.Proofs.Json.Sorting
import CrawlBoard.Proofs.Json.Tokens
import Mathlib.Data.List.Forall2

namespace CrawlBoard.Json

open Utf8 (Bytes)

/-- The same lists and objects of the same texts and tokens. -/
inductive Tree.Alike : Tree → Tree → Prop
  | token {tree other : Tree} (isToken : tree.isToken = true) (isTokenToo : other.isToken = true)
      (same : tree.bytes = other.bytes) : Alike tree other
  | text (value : String) : Alike (.text value) (.text value)
  | list (pairs : List (Tree × Tree)) (values : ∀ pair ∈ pairs, Alike pair.1 pair.2) :
      Alike (.list (pairs.map Prod.fst)) (.list (pairs.map Prod.snd))
  | object (parts : List (String × Tree × Tree)) (values : ∀ part ∈ parts, Alike part.2.1 part.2.2) :
      Alike (.object (parts.map fun part => (part.1, part.2.1)))
        (.object (parts.map fun part => (part.1, part.2.2)))

def separator (first : Bool) : Bytes := if first then [] else [0x2C]

theorem joined_cons (first : Bool) (part : Bytes) (parts : List Bytes) :
    joined first (part :: parts) = separator first ++ (part ++ joined false parts) := by
  cases first <;> rfl

theorem endsValue_joined (parts : List Bytes) {bracket : UInt8}
    (isBracket : bracket = 0x5D ∨ bracket = 0x7D) (rest : Bytes) :
    EndsValue (joined false parts ++ bracket :: rest) := by
  cases parts with
  | nil => exact endsValue_cons (.inr isBracket) rest
  | cons part parts => exact endsValue_cons (.inl rfl) _

theorem Tree.bytes_text (value : String) :
    (Tree.text value).bytes = 0x22 :: (escaped value ++ [0x22]) :=
  encode_quote value

def Tree.opening? : Tree → Option UInt8
  | .text _ => some 0x22
  | .list _ => some 0x5B
  | .object _ => some 0x7B
  | .null | .bool _ | .natural _ | .real _ => none

theorem Tree.opening?_token {tree : Tree} (isToken : tree.isToken = true) :
    tree.opening? = none := by
  cases tree with
  | null | bool | natural | real => rfl
  | text | list | object => cases isToken

theorem Tree.begins (tree : Tree) : ∃ byte tail, tree.bytes = byte :: tail ∧
    tree.opening? = if isTokenByte byte then none else some byte := by
  by_cases isToken : tree.isToken = true
  · obtain ⟨byte, tail, shape⟩ := List.exists_cons_of_ne_nil (bytes_ne_nil isToken)
    have token := isTokenByte_of_mem isToken byte (shape ▸ List.mem_cons_self)
    refine ⟨byte, tail, shape, ?_⟩
    rw [opening?_token isToken, if_pos token]
  · cases tree with
    | text value => exact ⟨_, _, bytes_text value, rfl⟩
    | list items => exact ⟨_, _, bytes_list items, rfl⟩
    | object members => exact ⟨_, _, bytes_object members, rfl⟩
    | null | bool | natural | real => exact absurd rfl isToken

theorem Tree.bytes_ne_close (tree : Tree) (tail more : Bytes) : 0x5D :: tail ≠ tree.bytes ++ more := by
  obtain ⟨byte, _, shape, opening⟩ := tree.begins
  intro same
  rw [shape] at same
  obtain ⟨rfl, _⟩ := List.cons.inj same
  have none : tree.opening? = some 0x5D := opening
  cases tree <;> simp [opening?] at none

/-- The tree and its end can be read off any bytes that begin with it. -/
def Tree.Readable (tree : Tree) : Prop :=
  ∀ (other : Tree) (rest more : Bytes), EndsValue rest → EndsValue more →
    tree.bytes ++ rest = other.bytes ++ more → tree.Alike other ∧ rest = more

theorem Tree.opening?_of_same {tree other : Tree} {rest more : Bytes}
    (same : tree.bytes ++ rest = other.bytes ++ more) : tree.opening? = other.opening? := by
  obtain ⟨byte, _, shape, opening⟩ := tree.begins
  obtain ⟨byteToo, _, shapeToo, openingToo⟩ := other.begins
  rw [shape, shapeToo] at same
  obtain ⟨rfl, _⟩ := List.cons.inj same
  exact opening.trans openingToo.symm

namespace Tree

theorem readable_token {tree : Tree} (isToken : tree.isToken = true) : tree.Readable := by
  intro other rest more ends endsToo same
  have opening := opening?_of_same same
  have isTokenToo : other.isToken = true := by
    rw [opening?_token isToken] at opening
    cases other with
    | null | bool | natural | real => rfl
    | text | list | object => cases opening
  have tokens := congrArg (List.takeWhile isTokenByte) same
  rw [takeWhile_token isToken ends, takeWhile_token isTokenToo endsToo] at tokens
  rw [tokens] at same
  exact ⟨.token isToken isTokenToo tokens, List.append_cancel_left same⟩

theorem text_of_same {text other : String} {rest more : Bytes}
    (same : escaped text ++ 0x22 :: rest = escaped other ++ 0x22 :: more) :
    text = other ∧ rest = more := by
  have read := (writtenAll_escaped text).readText rest
  rw [same, (writtenAll_escaped other).readText more] at read
  obtain ⟨texts, rests⟩ := Prod.mk.inj (Except.ok.inj read)
  exact ⟨texts.symm, rests.symm⟩

theorem readable_text (value : String) : (Tree.text value).Readable := by
  intro other rest more _ _ same
  have opening := opening?_of_same same
  cases other with
  | text otherValue =>
      rw [bytes_text, bytes_text, List.cons_append, List.cons_append, List.append_assoc,
        List.append_assoc] at same
      obtain ⟨rfl, rests⟩ := text_of_same (List.cons.inj same).2
      exact ⟨.text _, rests⟩
  | null | bool | natural | real | list | object => simp [opening?] at opening

theorem readable_items {items : List Tree} (readable : ∀ item ∈ items, item.Readable)
    (first : Bool) (others : List Tree) (rest more : Bytes)
    (same : joined first (items.map bytes) ++ 0x5D :: rest =
      joined first (others.map bytes) ++ 0x5D :: more) :
    (∃ pairs : List (Tree × Tree), pairs.map Prod.fst = items ∧ pairs.map Prod.snd = others ∧
      ∀ pair ∈ pairs, Alike pair.1 pair.2) ∧ rest = more := by
  -- One of the lists has ended, and the other one goes on.
  have stops (first : Bool) (item : Tree) (parts : List Bytes) (tail more : Bytes) :
      joined first [] ++ 0x5D :: tail ≠ joined first (item.bytes :: parts) ++ more := by
    cases first with
    | false => exact fun same => absurd (List.cons.inj same).1 (by decide)
    | true =>
        rw [joined, joined, List.append_assoc]
        exact item.bytes_ne_close tail _
  induction items generalizing first others with
  | nil =>
      cases others with
      | nil => exact ⟨⟨[], rfl, rfl, List.forall_mem_nil _⟩,
          (List.cons.inj (List.append_cancel_left same)).2⟩
      | cons other others => exact absurd same (stops first other _ _ _)
  | cons item items ih =>
      cases others with
      | nil => exact absurd same.symm (stops first item _ _ _)
      | cons other others =>
          obtain ⟨head, tail⟩ := List.forall_mem_cons.mp readable
          simp only [List.map_cons, joined_cons, List.append_assoc] at same
          obtain ⟨alike, behind⟩ := head other _ _ (endsValue_joined _ (.inl rfl) _)
            (endsValue_joined _ (.inl rfl) _) (List.append_cancel_left same)
          obtain ⟨⟨pairs, rfl, rfl, values⟩, rests⟩ := ih tail false others behind
          exact ⟨⟨(item, other) :: pairs, rfl, rfl, List.forall_mem_cons.mpr ⟨alike, values⟩⟩, rests⟩

theorem compact_append (name : String) (tree : Tree) (rest : Bytes) :
    0x22 :: (Member.compact (name, tree)).bytes ++ rest =
      0x22 :: (escaped name ++ 0x22 :: 0x3A :: (tree.bytes ++ rest)) := by
  simp [Member.bytes, Member.compact]

theorem readable_members {members : List (String × Tree)}
    (readable : ∀ member ∈ members, member.2.Readable) (first : Bool)
    (others : List (String × Tree)) (rest more : Bytes)
    (same : joined first ((members.map Member.compact).map fun member => 0x22 :: member.bytes)
        ++ 0x7D :: rest =
      joined first ((others.map Member.compact).map fun member => 0x22 :: member.bytes)
        ++ 0x7D :: more) :
    (∃ parts : List (String × Tree × Tree), (parts.map fun part => (part.1, part.2.1)) = members ∧
      (parts.map fun part => (part.1, part.2.2)) = others ∧
      ∀ part ∈ parts, Alike part.2.1 part.2.2) ∧ rest = more := by
  have stops (first : Bool) (part : Bytes) (parts : List Bytes) (tail more : Bytes) :
      joined first [] ++ 0x7D :: tail ≠ joined first ((0x22 :: part) :: parts) ++ more := by
    cases first <;> exact fun same => absurd (List.cons.inj same).1 (by decide)
  -- The names are quoted, so they can be compared before the values.
  induction members generalizing first others with
  | nil =>
      cases others with
      | nil => exact ⟨⟨[], rfl, rfl, fun _ member => nomatch member⟩,
          (List.cons.inj (List.append_cancel_left same)).2⟩
      | cons other others => exact absurd same (stops first _ _ _ _)
  | cons member members ih =>
      cases others with
      | nil => exact absurd same.symm (stops first _ _ _ _)
      | cons other others =>
          obtain ⟨name, tree⟩ := member
          obtain ⟨otherName, otherTree⟩ := other
          have ⟨head, tail⟩ := List.forall_mem_cons.mp readable
          simp only [List.map_cons, joined_cons, List.append_assoc] at same
          have named := List.append_cancel_left same
          rw [compact_append, compact_append] at named
          obtain ⟨rfl, valued⟩ := text_of_same (List.cons.inj named).2
          obtain ⟨alike, behind⟩ := head otherTree _ _ (endsValue_joined _ (.inr rfl) _)
            (endsValue_joined _ (.inr rfl) _) (List.cons.inj valued).2
          obtain ⟨⟨parts, rfl, rfl, values⟩, rests⟩ := ih tail false others behind
          exact ⟨⟨(name, tree, otherTree) :: parts, rfl, rfl,
            List.forall_mem_cons.mpr ⟨alike, values⟩⟩, rests⟩

theorem readable (tree : Tree) : tree.Readable := by
  -- The first byte tells the kinds apart, and the induction reads what is inside.
  induction tree using Tree.induct with
  | token tree isToken => exact readable_token isToken
  | text value => exact readable_text value
  | list items ih =>
      intro other rest more _ _ same
      have opening := opening?_of_same same
      cases other with
      | list others =>
          rw [bytes_list, bytes_list, List.cons_append, List.cons_append, List.append_assoc,
            List.append_assoc] at same
          obtain ⟨⟨pairs, rfl, rfl, values⟩, rests⟩ :=
            readable_items ih true others rest more (List.cons.inj same).2
          exact ⟨.list pairs values, rests⟩
      | null | bool | natural | real | text | object => simp [opening?] at opening
  | object members ih =>
      intro other rest more _ _ same
      have opening := opening?_of_same same
      cases other with
      | object others =>
          rw [bytes_object, bytes_object, List.cons_append, List.cons_append, List.append_assoc,
            List.append_assoc] at same
          obtain ⟨⟨parts, rfl, rfl, values⟩, rests⟩ :=
            readable_members ih true others rest more (List.cons.inj same).2
          exact ⟨.object parts values, rests⟩
      | null | bool | natural | real | text | list => simp [opening?] at opening

theorem alike_of_compact {tree other : Tree} (same : tree.compact = other.compact) :
    tree.Alike other := by
  have ends : EndsValue [] := endsValue_blanks .nil
  refine (tree.readable other [] [] ends ends ?_).1
  rw [bytes, same, bytes]

theorem Alike.refl (tree : Tree) : tree.Alike tree := alike_of_compact rfl

theorem alike_text_iff (text other : String) : (Tree.text text).Alike (.text other) ↔ text = other := by
  constructor
  · intro alike
    cases alike with
    | token isToken => cases isToken
    | text => rfl
  · rintro rfl
    exact .text text

theorem alike_list_iff (items others : List Tree) :
    (Tree.list items).Alike (.list others) ↔ List.Forall₂ Alike items others := by
  constructor
  · intro alike
    cases alike with
    | token isToken => cases isToken
    | list pairs values =>
        rw [List.forall₂_map_left_iff, List.forall₂_map_right_iff, List.forall₂_same]
        exact values
  · intro alike
    have paired : ∃ pairs : List (Tree × Tree), pairs.map Prod.fst = items ∧
        pairs.map Prod.snd = others ∧ ∀ pair ∈ pairs, Alike pair.1 pair.2 := by
      induction alike with
      | nil => exact ⟨[], rfl, rfl, fun _ member => nomatch member⟩
      | @cons item other _ _ head _ ih =>
          obtain ⟨pairs, rfl, rfl, values⟩ := ih
          exact ⟨(item, other) :: pairs, rfl, rfl, List.forall_mem_cons.mpr ⟨head, values⟩⟩
    obtain ⟨pairs, rfl, rfl, values⟩ := paired
    exact .list pairs values

def AlikeMember (member other : String × Tree) : Prop := member.1 = other.1 ∧ member.2.Alike other.2

theorem alike_object_iff (members others : List (String × Tree)) :
    (Tree.object members).Alike (.object others) ↔ List.Forall₂ AlikeMember members others := by
  constructor
  · intro alike
    cases alike with
    | token isToken => cases isToken
    | object parts values =>
        rw [List.forall₂_map_left_iff, List.forall₂_map_right_iff, List.forall₂_same]
        exact fun part member => ⟨rfl, values part member⟩
  · intro alike
    have paired : ∃ parts : List (String × Tree × Tree),
        (parts.map fun part => (part.1, part.2.1)) = members ∧
        (parts.map fun part => (part.1, part.2.2)) = others ∧
        ∀ part ∈ parts, Alike part.2.1 part.2.2 := by
      induction alike with
      | nil => exact ⟨[], rfl, rfl, fun _ member => nomatch member⟩
      | @cons member other _ _ head _ ih =>
          obtain ⟨parts, rfl, rfl, values⟩ := ih
          obtain ⟨name, tree⟩ := member
          obtain ⟨otherName, otherTree⟩ := other
          obtain ⟨rfl, value⟩ := head
          exact ⟨(name, tree, otherTree) :: parts, rfl, rfl, List.forall_mem_cons.mpr ⟨value, values⟩⟩
    obtain ⟨parts, rfl, rfl, values⟩ := paired
    exact .object parts values

theorem Alike.prettyAt {tree other : Tree} (alike : tree.Alike other) (depth : Nat) :
    tree.prettyAt depth = other.prettyAt depth := by
  induction alike generalizing depth with
  | @token tree other isToken isTokenToo same =>
      have texts : some tree.compact = some other.compact := by
        rw [← Utf8.decode?_encode, ← Utf8.decode?_encode]
        exact congrArg Utf8.decode? same
      rw [prettyAt_token isToken, prettyAt_token isTokenToo]
      exact Option.some.inj texts
  | text => rfl
  | list pairs _ ih =>
      rw [Tree.prettyAt, Tree.prettyAt, prettyItems_eq, prettyItems_eq, List.map_map, List.map_map]
      congr 1
      exact List.map_congr_left fun pair member => ih pair member (depth + 1)
  | object parts _ ih =>
      rw [Tree.prettyAt, Tree.prettyAt, prettyMembers_eq, prettyMembers_eq, List.map_map,
        List.map_map]
      congr 1
      exact List.map_congr_left fun part member => congrArg _ (ih part member (depth + 1))

theorem alikeMembers_insert {members others : List (String × Tree)}
    (alike : List.Forall₂ AlikeMember members others) (name : String) {tree other : Tree}
    (value : tree.Alike other) :
    List.Forall₂ AlikeMember (insertMember name tree members) (insertMember name other others) := by
  induction alike with
  | nil => exact .cons ⟨rfl, value⟩ .nil
  | @cons member otherMember _ _ head tail ih =>
      obtain ⟨next, old⟩ := member
      obtain ⟨_, oldToo⟩ := otherMember
      obtain ⟨rfl, values⟩ := head
      rw [insertMember, insertMember]
      split
      · exact .cons ⟨rfl, value⟩ tail
      · split
        · exact .cons ⟨rfl, value⟩ (.cons ⟨rfl, values⟩ tail)
        · exact .cons ⟨rfl, values⟩ ih

theorem alikeMembers_sorted (parts : List (String × Tree × Tree))
    (values : ∀ part ∈ parts, part.2.1.sorted.Alike part.2.2.sorted)
    {done others : List (String × Tree)} (alike : List.Forall₂ AlikeMember done others) :
    List.Forall₂ AlikeMember
      (sortedMembers done (parts.map fun part => (part.1, part.2.1)))
      (sortedMembers others (parts.map fun part => (part.1, part.2.2))) := by
  induction parts generalizing done others with
  | nil => exact alike
  | cons part parts ih =>
      have ⟨head, tail⟩ := List.forall_mem_cons.mp values
      exact ih tail (alikeMembers_insert alike part.1 head)

theorem Alike.sorted {tree other : Tree} (alike : tree.Alike other) :
    tree.sorted.Alike other.sorted := by
  induction alike with
  | token isToken isTokenToo same =>
      obtain ⟨token, bytes⟩ := sorted_token isToken
      obtain ⟨tokenToo, bytesToo⟩ := sorted_token isTokenToo
      exact .token token tokenToo (bytes.trans (same.trans bytesToo.symm))
  | text value => exact .text value
  | list pairs _ ih =>
      rw [Tree.sorted, Tree.sorted, sortedItems_eq, sortedItems_eq, alike_list_iff, List.map_map,
        List.map_map, List.forall₂_map_left_iff, List.forall₂_map_right_iff, List.forall₂_same]
      exact ih
  | object parts _ ih =>
      rw [Tree.sorted, Tree.sorted, alike_object_iff]
      exact alikeMembers_sorted parts ih .nil

end Tree

end CrawlBoard.Json
