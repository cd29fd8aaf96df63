import CrawlBoard.Proofs.Json.Reading

namespace CrawlBoard.Json

open Utf8 (Bytes)

def Tree.bytes (tree : Tree) : Bytes := Utf8.encode tree.compact

theorem Tree.quoted_text (text : String) : Quoted text (Tree.text text).bytes := quoted_quote text

theorem Tree.bytes_natural (number : Nat) : (Tree.natural number).bytes = digitBytes number :=
  encode_toString number

def joined : Bool → List Bytes → Bytes
  | _, [] => []
  | true, part :: parts => part ++ joined false parts
  | false, part :: parts => 0x2C :: (part ++ joined false parts)

theorem separated_joined (first : Bool) (parts : List Bytes) :
    Separated first parts (joined first parts) := by
  induction parts generalizing first with
  | nil => exact .done .nil
  | cons part parts ih =>
      cases first with
      | true => exact .part (.first .nil) (ih false)
      | false => exact .part (.comma .nil .nil) (ih false)

theorem encode_comma_intercalate (parts : List String) :
    Utf8.encode (",".intercalate parts) = joined true (parts.map Utf8.encode) := by
  have comma : Utf8.encode "," = [0x2C] := by
    rw [Utf8.encode_eq_flatMap]
    rfl
  have more (part : String) (parts : List String) :
      Utf8.encode (",".intercalate (part :: parts)) =
        Utf8.encode part ++ joined false (parts.map Utf8.encode) := by
    induction parts generalizing part with
    | nil => rw [String.intercalate_singleton, List.map_nil, joined, List.append_nil]
    | cons next parts ih =>
        rw [String.intercalate_cons_cons, Utf8.encode_append, Utf8.encode_append, comma, ih,
          List.map_cons, joined, List.append_assoc, List.singleton_append]
  cases parts with
  | nil =>
      rw [String.intercalate_nil, Utf8.encode_eq_flatMap]
      rfl
  | cons part parts => exact more part parts

theorem compactItems_eq (items : List Tree) : compactItems items = items.map Tree.compact := by
  induction items with
  | nil => rfl
  | cons item items ih => rw [compactItems, ih, List.map_cons]

theorem encode_openBracket : Utf8.encode "[" = [0x5B] := by
  rw [Utf8.encode_eq_flatMap]
  rfl

theorem encode_closeBracket : Utf8.encode "]" = [0x5D] := by
  rw [Utf8.encode_eq_flatMap]
  rfl

theorem Tree.bytes_list (items : List Tree) :
    (Tree.list items).bytes = 0x5B :: (joined true (items.map Tree.bytes) ++ [0x5D]) := by
  rw [Tree.bytes, Tree.compact, Utf8.encode_append, Utf8.encode_append, encode_openBracket,
    encode_closeBracket, encode_comma_intercalate, compactItems_eq, List.map_map]
  rfl

theorem Tree.listOf (items : List Tree) : ListOf (items.map Tree.bytes) (Tree.list items).bytes :=
  bytes_list items ▸ .brackets (separated_joined true _)

def Member.compact (member : String × Tree) : Member where
  name := member.1
  quoted := escaped member.1
  written := writtenAll_escaped member.1
  trail := []
  trails := .nil
  lead := []
  leads := .nil
  value := member.2.bytes

theorem encode_openBrace : Utf8.encode openBrace = [0x7B] := by
  rw [Utf8.encode_eq_flatMap]
  rfl

theorem encode_closeBrace : Utf8.encode closeBrace = [0x7D] := by
  rw [Utf8.encode_eq_flatMap]
  rfl

theorem encode_compactMembers (members : List (String × Tree)) :
    (compactMembers members).map Utf8.encode =
      (members.map Member.compact).map fun member => 0x22 :: member.bytes := by
  have colon : Utf8.encode ":" = [0x3A] := by
    rw [Utf8.encode_eq_flatMap]
    rfl
  induction members with
  | nil => rfl
  | cons member members ih =>
      obtain ⟨name, tree⟩ := member
      rw [compactMembers, List.map_cons, List.map_cons, List.map_cons, ih, Utf8.encode_append,
        Utf8.encode_append, encode_quote, colon]
      simp [Member.bytes, Member.compact, Tree.bytes]

theorem Tree.bytes_object (members : List (String × Tree)) :
    (Tree.object members).bytes = 0x7B :: (joined true
      ((members.map Member.compact).map fun member => 0x22 :: member.bytes) ++ [0x7D]) := by
  rw [Tree.bytes, Tree.compact, Utf8.encode_append, Utf8.encode_append, encode_openBrace,
    encode_closeBrace, encode_comma_intercalate, encode_compactMembers]
  rfl

theorem Tree.objectOf (members : List (String × Tree)) :
    ObjectOf (members.map Member.compact) (Tree.object members).bytes :=
  bytes_object members ▸ .brackets (separated_joined true _)

end CrawlBoard.Json
