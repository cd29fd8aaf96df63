import CrawlBoard.Proofs.Json.Layout
import Mathlib.Data.List.Nodup

namespace CrawlBoard.Json

open Utf8 (Bytes)
open scoped List

variable {φ δ α : Type} [DecidableEq φ] {shape : Shape φ δ α}

/-- Every field has a reader of its own, and a place of its own in the draft. -/
structure Shape.Fields (shape : Shape φ δ α) where
  Content : φ → Type
  content (field : φ) : Reader (Content field)
  put (field : φ) (given : Content field) (draft : δ) : δ
  read_eq (field : φ) (draft : δ) : shape.read field draft =
    fun rest => (content field rest).map fun (given, rest) => (put field given draft, rest)
  known (field : φ) : shape.field? (shape.name field) = some field
  open_blank (field : φ) : shape.has field shape.blank = false
  has_put (field other : φ) (given : Content field) (draft : δ) :
    shape.has other (put field given draft) = (decide (other = field) || shape.has other draft)
  put_comm {field other : φ} (different : field ≠ other) (given : Content field)
    (more : Content other) (draft : δ) :
    put field given (put other more draft) = put other more (put field given draft)

namespace Shape.Fields

variable (fields : shape.Fields)

abbrev Given : Type := (field : φ) × fields.Content field

def fill (draft : δ) (given : List fields.Given) : δ :=
  given.foldl (fun draft part => fields.put part.1 part.2 draft) draft

/-- What a member gives: a field under any of its names, or nothing under an unknown one. -/
inductive MemberGives (member : Member) : List fields.Given → Prop
  | unknown (unknown : shape.field? member.name = none) (passes : Passes member.value) :
      MemberGives member []
  | field {field : φ} {content : fields.Content field}
      (known : shape.field? member.name = some field)
      (reads : Reads (fields.content field) member.value content) :
      MemberGives member [⟨field, content⟩]

inductive Gives : List Member → List fields.Given → Prop
  | nil : Gives [] []
  | cons {member : Member} {members : List Member} {parts given : List fields.Given}
      (first : fields.MemberGives member parts) (others : Gives members given) :
      Gives (member :: members) (parts ++ given)

variable {fields}

section Members

variable {members : List Member} {given more : List fields.Given} {draft : δ}

theorem fill_perm (distinct : (given.map Sigma.fst).Nodup) (perm : given ~ more) (draft : δ) :
    fields.fill draft given = fields.fill draft more := by
  refine perm.foldl_eq' (fun part present other presentToo draft => ?_) draft
  by_cases same : part.1 = other.1
  · obtain rfl := List.inj_on_of_nodup_map distinct present presentToo same
    rfl
  · exact (fields.put_comm same _ _ _).symm

theorem Gives.perm (gives : fields.Gives members given) {moved : List Member}
    (perm : members ~ moved) : ∃ more, more ~ given ∧ fields.Gives moved more := by
  induction perm generalizing given with
  | nil => exact ⟨given, .refl _, gives⟩
  | cons member _ ih =>
      obtain _ | ⟨first, others⟩ := gives
      obtain ⟨more, same, gives⟩ := ih others
      exact ⟨_, same.append_left _, .cons first gives⟩
  | swap =>
      obtain _ | ⟨first, _ | ⟨second, others⟩⟩ := gives
      exact ⟨_, List.perm_append_comm_assoc _ _ _, .cons second (.cons first others)⟩
  | trans _ _ firstStep secondStep =>
      obtain ⟨between, same, gives⟩ := firstStep gives
      obtain ⟨more, sameAgain, gives⟩ := secondStep gives
      exact ⟨more, sameAgain.trans same, gives⟩

theorem Gives.append (gives : fields.Gives members given) {others : List Member}
    (behind : fields.Gives others more) : fields.Gives (members ++ others) (given ++ more) := by
  induction gives with
  | nil => exact behind
  | cons first _ ih =>
      rw [List.append_assoc]
      exact .cons first ih

/-- Members fill a draft in which all that they give is still open. -/
theorem Gives.fills (gives : fields.Gives members given) (distinct : (given.map Sigma.fst).Nodup)
    (isOpen : ∀ part ∈ given, shape.has part.1 draft = false) :
    Fills shape draft members (fields.fill draft given) := by
  induction gives generalizing draft with
  | nil => exact .done draft
  | @cons member members parts given first _ ih =>
      cases first with
      | unknown unknown passes => exact .unknown unknown passes (ih distinct isOpen)
      | @field field content known reads =>
          have ⟨fresh, rest⟩ := List.nodup_cons.mp distinct
          have ⟨head, tail⟩ := List.forall_mem_cons.mp isOpen
          have later : ∀ part ∈ given,
              shape.has part.1 (fields.put field content draft) = false := by
            intro part present
            have given : part.1 ∈ given.map Sigma.fst := List.mem_map_of_mem present
            have other : part.1 ≠ field := ne_of_mem_of_not_mem given fresh
            rw [fields.has_put, tail part present, decide_eq_false other]
            rfl
          have next := reads.map fun given => fields.put field given draft
          rw [← fields.read_eq] at next
          exact .field field known head next (ih rest later)

end Members

variable (fields)

def GivesTree (members : List (String × Tree)) (given : List fields.Given) : Prop :=
  ∀ written : List (Tree × Member), (∀ part ∈ written, part.1.Writes part.2.value) →
    (written.map fun part => (part.2.name, part.1)) = members →
    fields.Gives (written.map Prod.snd) given

include fields in
theorem name_injective : Function.Injective shape.name := by
  intro field other same
  have known := fields.known other
  rw [← same, fields.known] at known
  exact Option.some.inj known

variable {fields} {members others : List (String × Tree)} {given more : List fields.Given}

namespace GivesTree

theorem nil : fields.GivesTree [] [] := by
  intro written _ same
  obtain rfl := List.map_eq_nil_iff.mp same
  exact .nil

theorem field (field : φ) {content : fields.Content field} {tree : Tree}
    (readAs : tree.ReadAs (fields.content field) content) (gives : fields.GivesTree members given) :
    fields.GivesTree ((shape.name field, tree) :: members) (⟨field, content⟩ :: given) := by
  intro written values same
  cases written with
  | nil => cases same
  | cons part written =>
      obtain ⟨head, rfl⟩ := List.cons.inj same
      obtain ⟨named, rfl⟩ := Prod.mk.inj head
      have ⟨first, rest⟩ := List.forall_mem_cons.mp values
      have known : shape.field? part.2.name = some field := named ▸ fields.known field
      exact .cons (.field known (readAs _ first)) (gives written rest rfl)

theorem unknown {name : String} {tree : Tree} (unknown : shape.field? name = none)
    (passes : ∀ bytes, tree.Writes bytes → Passes bytes) (gives : fields.GivesTree members given) :
    fields.GivesTree ((name, tree) :: members) given := by
  intro written values same
  cases written with
  | nil => cases same
  | cons part written =>
      obtain ⟨head, rfl⟩ := List.cons.inj same
      obtain ⟨rfl, rfl⟩ := Prod.mk.inj head
      have ⟨first, rest⟩ := List.forall_mem_cons.mp values
      exact .cons (.unknown unknown (passes _ first)) (gives written rest rfl)

theorem append (gives : fields.GivesTree members given) (behind : fields.GivesTree others more) :
    fields.GivesTree (members ++ others) (given ++ more) := by
  intro written values same
  obtain ⟨front, back, rfl, rfl, rfl⟩ := List.map_eq_append_iff.mp same
  have ⟨first, rest⟩ := List.forall_mem_append.mp values
  rw [List.map_append]
  exact (gives front first rfl).append (behind back rest rfl)

theorem option (field : φ) {β : Type} (write : β → Tree) (wrap : β → fields.Content field)
    (readAs : ∀ b, (write b).ReadAs (fields.content field) (wrap b)) (value? : Option β) :
    fields.GivesTree (value?.toList.map fun b => (shape.name field, write b))
      (value?.toList.map fun b => ⟨field, wrap b⟩) := by
  cases value? with
  | none => exact nil
  | some b => exact .field field (readAs b) nil

theorem readAs (gives : fields.GivesTree members given) (distinct : (given.map Sigma.fst).Nodup)
    {a : α} (finished : shape.finish (fields.fill shape.blank given) = .ok a) :
    (Tree.object members).ReadAs shape.record a := by
  intro bytes writes
  cases writes with
  | token isToken => cases isToken
  | object written values same listed =>
      obtain ⟨arranged, rfl, perm⟩ := exists_perm_of_perm_map same
      have gives := gives arranged (fun part present => values part (perm.mem_iff.mp present)) rfl
      obtain ⟨more, moved, gives⟩ := gives.perm (perm.map Prod.snd)
      have distinctMore : (more.map Sigma.fst).Nodup :=
        (moved.map Sigma.fst).nodup_iff.mpr distinct
      have fills := gives.fills distinctMore fun part _ => fields.open_blank part.1
      rw [fill_perm distinctMore moved] at fills
      exact .record fills finished listed

end GivesTree

end Shape.Fields

end CrawlBoard.Json
