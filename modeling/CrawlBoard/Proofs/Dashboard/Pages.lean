import CrawlBoard.Dashboard.Work
import CrawlBoard.Proofs.Lookup

namespace CrawlBoard.Dashboard

open Lookup

theorem lookup_putPage (index other : Nat) (page : OpenPage) (pages : List (Nat × OpenPage)) :
    (putPage index page pages).lookup other =
      if other = index then some page else pages.lookup other := by
  induction pages with
  | nil => simp [putPage, lookup_cons_eq_ite]
  | cons head tail ih =>
      obtain ⟨key, present⟩ := head
      simp only [putPage]
      split
      · rw [lookup_cons_eq_ite]
      · split
        · rename_i same
          subst same
          simp only [lookup_cons_eq_ite]
          split <;> rfl
        · rename_i notBefore different
          simp only [lookup_cons_eq_ite, ih]
          by_cases atKey : other = key
          · simp [atKey, Ne.symm different]
          · simp [atKey]

theorem keys_putPage (index : Nat) (page : OpenPage) (pages : List (Nat × OpenPage)) (start : Nat)
    (keys : pages.map (·.1) = List.range' start pages.length)
    (low : start ≤ index) (high : index ≤ start + pages.length) :
    (putPage index page pages).map (·.1) =
      List.range' start
        (if index = start + pages.length then pages.length + 1 else pages.length) := by
  induction pages generalizing start with
  | nil =>
      have same : index = start := by simpa using Nat.le_antisymm high low
      simp [putPage, same]
  | cons head tail ih =>
      obtain ⟨key, present⟩ := head
      simp only [List.map_cons, List.length_cons, List.range'_succ, List.cons.injEq] at keys
      obtain ⟨rfl, rest⟩ := keys
      simp only [List.length_cons] at high ⊢
      by_cases first : index = key
      · subst first
        have inside : index ≠ index + (tail.length + 1) := by omega
        simp only [putPage, Nat.lt_irrefl, if_false, if_true, inside, List.map_cons, rest,
          List.range'_succ]
      · have later : ¬ index < key := by omega
        have tailKeys := ih (key + 1) rest (by omega) (by omega)
        simp only [putPage, later, first, if_false, List.map_cons, tailKeys]
        by_cases last : index = key + (tail.length + 1)
        · have ends : index = key + 1 + tail.length := by omega
          rw [if_pos last, if_pos ends]
          exact (List.range'_succ ..).symm
        · have before : index ≠ key + 1 + tail.length := by omega
          rw [if_neg last, if_neg before]
          exact (List.range'_succ ..).symm

theorem page?_startLoad (dashboard : Dashboard) (page other : Nat) (token? : Option String) :
    (dashboard.startLoad page token?).page? other =
      if other = page then some ⟨dashboard.serial, .empty, .loading⟩ else dashboard.page? other :=
  lookup_putPage ..

theorem page?_updatePage (dashboard : Dashboard) (load : Load) (change : OpenPage → OpenPage)
    (index : Nat) :
    (dashboard.updatePage load change).page? index = (dashboard.page? index).map fun page =>
      if index = load.page ∧ page.serial = load.serial then change page else page := by
  have pairs : (fun (entry : Nat × OpenPage) =>
      if entry.1 = load.page ∧ entry.2.serial = load.serial then (entry.1, change entry.2)
      else (entry.1, entry.2)) =
      fun entry => (entry.1,
        if entry.1 = load.page ∧ entry.2.serial = load.serial then change entry.2
        else entry.2) := by
    funext entry
    split <;> rfl
  simp only [page?, updatePage, pairs]
  exact lookup_map_snd index (fun key page =>
    if key = load.page ∧ page.serial = load.serial then change page else page) dashboard.pages

@[simp] theorem keys_updatePage (dashboard : Dashboard) (load : Load)
    (change : OpenPage → OpenPage) :
    (dashboard.updatePage load change).pages.map (·.1) = dashboard.pages.map (·.1) := by
  simp only [updatePage, List.map_map]
  apply List.map_congr_left
  intro entry _
  simp only [Function.comp]
  split <;> rfl

@[simp] theorem length_pages_updatePage (dashboard : Dashboard) (load : Load)
    (change : OpenPage → OpenPage) :
    (dashboard.updatePage load change).pages.length = dashboard.pages.length := by
  simp [updatePage]

theorem pages_updatePage_of_fixed (dashboard : Dashboard) (load : Load)
    (change : OpenPage → OpenPage) (fixed : ∀ page, change page = page) :
    (dashboard.updatePage load change).pages = dashboard.pages := by
  have unchanged (entry : Nat × OpenPage) :
      (if entry.1 = load.page ∧ entry.2.serial = load.serial then (entry.1, change entry.2)
        else (entry.1, entry.2)) = entry := by
    simp [fixed]
  calc
    (dashboard.updatePage load change).pages = dashboard.pages.map id :=
      List.map_congr_left fun entry _ => unchanged entry
    _ = dashboard.pages := List.map_id _

theorem load_of_load? (dashboard : Dashboard) (serial : Nat) (load : Load)
    (found : dashboard.load? serial = some load) :
    load ∈ dashboard.loads ∧ load.serial = serial := by
  refine ⟨List.mem_of_find?_eq_some found, ?_⟩
  simpa using List.find?_some found

theorem mem_of_load? {dashboard : Dashboard} {serial : Nat} {load : Load}
    (found : dashboard.load? serial = some load) : load ∈ dashboard.loads :=
  (load_of_load? dashboard serial load found).1

theorem mem_setStage (dashboard : Dashboard) (serial : Nat) (stage : LoadStage) (load : Load) :
    load ∈ (dashboard.setStage serial stage).loads ↔
      (load ∈ dashboard.loads ∧ load.serial ≠ serial) ∨
        ∃ old ∈ dashboard.loads, old.serial = serial ∧ load = { old with stage } := by
  simp only [setStage, List.mem_map]
  constructor
  · rintro ⟨old, member, rfl⟩
    by_cases same : old.serial = serial
    · exact .inr ⟨old, member, same, by simp [same]⟩
    · exact .inl (by simpa [same] using member)
  · rintro (⟨member, other⟩ | ⟨old, member, same, rfl⟩)
    · exact ⟨load, member, by simp [other]⟩
    · exact ⟨old, member, by simp [same]⟩

theorem load?_setStage (dashboard : Dashboard) (load : Load) (stage : LoadStage)
    (found : dashboard.load? load.serial = some load) :
    (dashboard.setStage load.serial stage).load? load.serial = some { load with stage } := by
  have sameSerial : ((fun other => decide (other.serial = load.serial)) ∘ fun (other : Load) =>
      if other.serial = load.serial then { other with stage } else other) =
      fun other => decide (other.serial = load.serial) := by
    funext other
    simp only [Function.comp]
    split <;> rfl
  unfold load? setStage
  rw [List.find?_map, sameSerial]
  change (dashboard.load? load.serial).map _ = _
  rw [found, Option.map_some, if_pos rfl]

theorem serials_setStage (dashboard : Dashboard) (serial : Nat) (stage : LoadStage) :
    (dashboard.setStage serial stage).loads.map (·.serial) = dashboard.loads.map (·.serial) := by
  simp only [setStage, List.map_map]
  apply List.map_congr_left
  intro load _
  simp only [Function.comp]
  split <;> rfl

theorem mem_dropLoad (dashboard : Dashboard) (serial : Nat) (load : Load) :
    load ∈ (dashboard.dropLoad serial).loads ↔ load ∈ dashboard.loads ∧ load.serial ≠ serial := by
  simp [dropLoad]

end CrawlBoard.Dashboard
