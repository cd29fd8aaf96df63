import CrawlBoard.Proofs.Json.Layout

namespace CrawlBoard.Json

open Utf8 (Bytes)
open scoped List

def Ordered (members : List (String × Tree)) : Prop := (members.map Prod.fst).Pairwise (· < ·)

section Insert

variable {name : String} (tree : Tree) {members : List (String × Tree)}

theorem insertMember_perm (absent : name ∉ members.map Prod.fst) :
    insertMember name tree members ~ (name, tree) :: members := by
  induction members with
  | nil => exact .refl _
  | cons member members ih =>
      obtain ⟨other, old⟩ := member
      rw [List.map_cons, List.mem_cons, not_or] at absent
      rw [insertMember, if_neg absent.1]
      split
      · exact .refl _
      · exact ((ih absent.2).cons _).trans (.swap _ _ _)

theorem insertMember_ordered (absent : name ∉ members.map Prod.fst) (ordered : Ordered members) :
    Ordered (insertMember name tree members) := by
  induction members with
  | nil => exact List.pairwise_singleton _ _
  | cons member members ih =>
      obtain ⟨other, old⟩ := member
      have ⟨below, rest⟩ := List.pairwise_cons.mp ordered
      rw [List.map_cons, List.mem_cons, not_or] at absent
      rw [insertMember, if_neg absent.1]
      split
      · rename_i smaller
        refine List.pairwise_cons.mpr ⟨fun next member => ?_, ordered⟩
        rcases List.mem_cons.mp member with rfl | member
        · exact smaller
        · exact String.lt_trans smaller (below next member)
      · rename_i notSmaller
        refine List.pairwise_cons.mpr ⟨fun next member => ?_, ih absent.2 rest⟩
        have members := ((insertMember_perm tree absent.2).map Prod.fst).mem_iff.mp member
        rcases List.mem_cons.mp members with rfl | member
        · exact Std.lt_of_le_of_ne (Std.not_lt.mp notSmaller) (Ne.symm absent.1)
        · exact below next member

end Insert

def sortedMember (member : String × Tree) : String × Tree := (member.1, member.2.sorted)

theorem map_fst_sortedMember (members : List (String × Tree)) :
    (members.map sortedMember).map Prod.fst = members.map Prod.fst :=
  List.map_map

theorem sortedItems_eq (items : List Tree) : sortedItems items = items.map Tree.sorted := by
  induction items with
  | nil => rfl
  | cons item items ih => rw [sortedItems, ih, List.map_cons]

theorem sortedMembers_append (done : List (String × Tree)) {members : List (String × Tree)}
    (distinct : (done.map Prod.fst ++ members.map Prod.fst).Nodup) (ordered : Ordered done) :
    sortedMembers done members ~ done ++ members.map sortedMember ∧
      Ordered (sortedMembers done members) := by
  induction members generalizing done with
  | nil =>
      rw [sortedMembers, List.map_nil, List.append_nil]
      exact ⟨.refl _, ordered⟩
  | cons member members ih =>
      obtain ⟨name, tree⟩ := member
      rw [List.map_cons] at distinct
      have absent : name ∉ done.map Prod.fst := fun present =>
        (List.nodup_append.mp distinct).2.2 name present name List.mem_cons_self rfl
      have inserted := insertMember_perm tree.sorted absent
      have names : (insertMember name tree.sorted done).map Prod.fst ++ members.map Prod.fst ~
          done.map Prod.fst ++ name :: members.map Prod.fst :=
        ((inserted.map Prod.fst).append_right _).trans List.perm_middle.symm
      obtain ⟨perm, sorted⟩ := ih _ (names.nodup_iff.mpr distinct) (insertMember_ordered _ absent ordered)
      refine ⟨?_, sorted⟩
      calc sortedMembers done ((name, tree) :: members)
          ~ insertMember name tree.sorted done ++ members.map sortedMember := perm
        _ ~ ((name, tree.sorted) :: done) ++ members.map sortedMember := inserted.append_right _
        _ ~ done ++ (name, tree.sorted) :: members.map sortedMember := List.perm_middle.symm

section Members

variable {members : List (String × Tree)} (distinct : (members.map Prod.fst).Nodup)
include distinct

theorem sortedMembers_perm : sortedMembers [] members ~ members.map sortedMember :=
  (sortedMembers_append [] distinct .nil).1

theorem sortedMembers_ordered : Ordered (sortedMembers [] members) :=
  (sortedMembers_append [] distinct .nil).2

end Members

/-- The names of an object are distinct, at every level. -/
inductive Tree.Distinct : Tree → Prop
  | token {tree : Tree} (isToken : tree.isToken = true) : Distinct tree
  | text (value : String) : Distinct (.text value)
  | list {items : List Tree} (values : ∀ item ∈ items, Distinct item) : Distinct (.list items)
  | object {members : List (String × Tree)} (names : (members.map Prod.fst).Nodup)
      (values : ∀ member ∈ members, Distinct member.2) : Distinct (.object members)

/-- A token stays what it is, but for doubles that have no numeral. -/
theorem Tree.sorted_token {tree : Tree} (isToken : tree.isToken = true) :
    tree.sorted.isToken = true ∧ tree.sorted.bytes = tree.bytes := by
  cases tree with
  | null | bool | natural => exact ⟨rfl, rfl⟩
  | real x =>
      rw [Tree.sorted]
      split
      · exact ⟨rfl, rfl⟩
      · rename_i infinite
        refine ⟨rfl, ?_⟩
        rw [bytes, bytes, compact, compact, realText, if_neg infinite]
  | text | list | object => cases isToken

theorem Tree.Writes.of_sortedMembers {members moved : List (String × Tree)} {bytes : Bytes}
    (writes : (Tree.object moved).Writes bytes) (perm : moved ~ members.map sortedMember)
    (values : ∀ member ∈ members, ∀ {bytes : Bytes}, member.2.sorted.Writes bytes →
      member.2.Writes bytes) : (Tree.object members).Writes bytes := by
  cases writes with
  | token isToken => cases isToken
  | object written parts same listed =>
      obtain ⟨given, images, unmoved⟩ := exists_perm_of_perm_map (same.symm.trans perm)
      obtain ⟨pairs, rfl, rfl, agree⟩ := exists_pairs_of_map_eq images
      refine .object (pairs.map fun pair => (pair.2.2, pair.1.2)) ?_ ?_ ?_
      · intro part member
        obtain ⟨pair, present, rfl⟩ := List.mem_map.mp member
        have tree : pair.1.1 = pair.2.2.sorted := congrArg Prod.snd (agree pair present)
        refine values pair.2 (unmoved.mem_iff.mp (List.mem_map_of_mem present)) ?_
        rw [← tree]
        exact parts pair.1 (List.mem_map_of_mem present)
      · refine unmoved.symm.trans (.of_eq ?_)
        rw [List.map_map]
        refine List.map_congr_left fun pair present => ?_
        have name : pair.1.2.name = pair.2.1 := congrArg Prod.fst (agree pair present)
        exact Prod.ext name.symm rfl
      · rw [List.map_map] at listed ⊢
        exact listed

/-- A text of the sorted tree is a text of the tree. -/
theorem Tree.Distinct.writes {tree : Tree} (distinct : tree.Distinct) {bytes : Bytes}
    (writes : tree.sorted.Writes bytes) : tree.Writes bytes := by
  induction distinct generalizing bytes with
  | token isToken =>
      obtain ⟨sortedToken, same⟩ := sorted_token isToken
      rw [writes.token_bytes sortedToken, same]
      exact .token isToken
  | text => exact writes
  | list _ ih =>
      cases writes with
      | token isToken => cases isToken
      | list written values same listed =>
          rw [sortedItems_eq] at same
          obtain ⟨pairs, rfl, rfl, agree⟩ := exists_pairs_of_map_eq same
          refine .list (pairs.map fun pair => (pair.2, pair.1.2)) ?_ ?_ ?_
          · intro part member
            obtain ⟨pair, present, rfl⟩ := List.mem_map.mp member
            refine ih _ (List.mem_map_of_mem present) ?_
            rw [← agree pair present]
            exact values _ (List.mem_map_of_mem present)
          · rw [List.map_map]
            rfl
          · rw [List.map_map] at listed ⊢
            exact listed
  | object names _ ih =>
      exact writes.of_sortedMembers (sortedMembers_perm names) fun member present _ => ih member present

end CrawlBoard.Json
