import CrawlBoard.Store.Basic
import CrawlBoard.Text.Digits
/-!
A store in memory. Objects are listed in the order of their keys; a token is the number of
objects that have been listed.
-/

namespace CrawlBoard

open Utf8 (Bytes)

structure MemoryObject where
  body : Bytes
  updated? : Option Instant
  deriving DecidableEq, Repr

structure MemoryStore where
  objects : List (String × MemoryObject) := []
  ordered : objects.Pairwise (fun before after => before.1 < after.1) := by exact .nil
  failing : List String := []
  listingError? : Option Nat := none
  gated : Bool := false
  deriving DecidableEq, Repr

namespace MemoryStore

def location : String := "memory://reports"

def insertObject (key : String) (object : MemoryObject) :
    List (String × MemoryObject) → List (String × MemoryObject)
  | [] => [(key, object)]
  | (other, present) :: objects =>
      if key < other then (key, object) :: (other, present) :: objects
      else if key = other then (key, object) :: objects
      else (other, present) :: insertObject key object objects

theorem key_of_mem_insertObject (key : String) (object : MemoryObject)
    (objects : List (String × MemoryObject)) (entry : String × MemoryObject)
    (member : entry ∈ insertObject key object objects) : entry.1 = key ∨ entry ∈ objects := by
  induction objects with
  | nil => simp_all [insertObject]
  | cons head tail ih =>
      simp only [insertObject] at member
      split at member
      · simp only [List.mem_cons] at member ⊢
        rcases member with rfl | member
        · exact .inl rfl
        · exact .inr member
      · split at member
        · simp only [List.mem_cons] at member ⊢
          rcases member with rfl | member
          · exact .inl rfl
          · exact .inr (.inr member)
        · simp only [List.mem_cons] at member ⊢
          rcases member with rfl | member
          · exact .inr (.inl rfl)
          · exact (ih member).imp_right .inr

theorem insertObject_ordered (key : String) (object : MemoryObject)
    (objects : List (String × MemoryObject))
    (ordered : objects.Pairwise (fun before after => before.1 < after.1)) :
    (insertObject key object objects).Pairwise (fun before after => before.1 < after.1) := by
  induction objects with
  | nil => exact List.pairwise_singleton _ _
  | cons head tail ih =>
      have ⟨below, rest⟩ := List.pairwise_cons.mp ordered
      simp only [insertObject]
      split
      · rename_i smaller
        refine List.pairwise_cons.mpr ⟨?_, ordered⟩
        intro entry member
        rcases List.mem_cons.mp member with rfl | member
        · exact smaller
        · exact String.lt_trans smaller (below entry member)
      · split
        · rename_i same
          exact List.pairwise_cons.mpr ⟨same ▸ below, rest⟩
        · rename_i notSmaller different
          refine List.pairwise_cons.mpr ⟨?_, ih rest⟩
          intro entry member
          rcases key_of_mem_insertObject key object tail entry member with same | member
          · rw [same]
            exact Std.lt_of_le_of_ne (Std.not_lt.mp notSmaller) (Ne.symm different)
          · exact below entry member

def insert (store : MemoryStore) (key : String) (object : MemoryObject) : MemoryStore :=
  { store with
    objects := insertObject key object store.objects
    ordered := insertObject_ordered key object store.objects store.ordered }

def under (store : MemoryStore) (keyPrefix : String) : List ObjectEntry :=
  (store.objects.filter fun (key, _) => keyPrefix.toList.isPrefixOf key.toList).map
    fun (key, object) => ⟨key, object.updated?⟩

def start (token? : Option String) : Except StoreError Nat :=
  match token? with
  | none => .ok 0
  | some token =>
      match Digits.parse 0xFFFFFFFFFFFFFFFF token with
      | .ok start => .ok start
      | .error _ => .error (.invalidListing ("bad token " ++ token))

def page (entries : List ObjectEntry) (start limit : Nat) : ObjectPage :=
  let shown := (entries.drop start).take limit
  let next := start + shown.length
  ⟨shown, if next < entries.length then some (toString next) else none⟩

def list (store : MemoryStore) (query : ListQuery) : Except StoreError ObjectPage :=
  match store.listingError? with
  | some code => .error (.status location code)
  | none => (start query.token?).map fun start => page (store.under query.keyPrefix) start query.limit

def fetch (store : MemoryStore) (key : String) : Except StoreError StoredObject :=
  if store.failing.contains key then .error (.status key 500)
  else match store.objects.lookup key with
    | some object => .ok ⟨object.body, none⟩
    | none => .error (.notFound key)

def gateName : String := ""

/-- A listing answers at once; a fetch that waits sees the objects of the time it goes on. -/
def kind : StoreKind MemoryStore where
  location _ := location
  list store query := ({ answer := fun _ => store.list query }, store)
  fetch store key :=
    ({ gate? := if store.gated then some gateName else none
       answer := fun now => now.fetch key }, store)

end MemoryStore

end CrawlBoard
