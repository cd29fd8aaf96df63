import CrawlBoard.Proofs.Dashboard.Coherence
import CrawlBoard.Proofs.ItemOutcomes
/-!
What the answers of a store leave on the pages. Whatever is known of the answers, every item and
every page status can be traced back to them, in each state of a run.
-/

namespace CrawlBoard

/-- What is known of the answers of a store: to the listing of a load, and to the fetch of an
entry that the load has listed. -/
structure Replies where
  listing (serial : Nat) (token? : Option String) (answer : Except StoreError ObjectPage) : Prop
  fetch (serial : Nat) (entry : ObjectEntry) (answer : Except StoreError StoredObject) : Prop

namespace Replies

def Admits (replies : Replies) (dashboard : Dashboard) : Event → Prop
  | .takeListing serial answer => ∀ load, dashboard.load? serial = some load →
      load.stage = .listing → replies.listing serial load.token? answer
  | .takeFetch serial position answer => ∀ load fetching entry,
      dashboard.load? serial = some load → load.stage = .fetching fetching →
      position ∈ fetching.waiting → fetching.listed.entries[position]? = some entry →
      replies.fetch serial entry answer
  | _ => True

/-- The items are the placeholders of a listing with answers to its fetches recorded; every
fetch that is awaited no more has been recorded, unless the dashboard was unmounted by then. -/
def Recorded (replies : Replies) (serial : Nat) (unmounted : Bool) (load : PageLoad)
    (items : PageItems) : Prop :=
  ∃ outcomes : List (String × Outcome),
    items = (PageItems.ofKeys load.listed.keys).resolveAll outcomes ∧
    (∀ recorded ∈ outcomes, ∃ entry ∈ load.listed.entries, ∃ answer,
      replies.fetch serial entry answer ∧ recorded = (entry.key, Pager.outcome entry answer)) ∧
    (unmounted = false → ∀ position entry, load.listed.entries[position]? = some entry →
      position ∈ load.waiting ∨ entry.key ∈ outcomes.map (·.1))

def LoadAccounted (replies : Replies) (unmounted : Bool) (load : Load) (items : PageItems) : Prop :=
  match load.stage with
  | .asking | .listing => items = .empty
  | .listed listed => items = .empty ∧ ∃ page,
      replies.listing load.serial load.token? (.ok page) ∧ listed = .ofListing page
  | .refused error => items = .empty ∧ replies.listing load.serial load.token? (.error error)
  | .fetching fetching =>
      (∃ page, replies.listing load.serial load.token? (.ok page) ∧
        fetching.listed = .ofListing page) ∧
      replies.Recorded load.serial unmounted fetching items

def PageAccounted (replies : Replies) (dashboard : Dashboard) (index : Nat) (page : OpenPage) :
    Prop :=
  match page.status with
  | .loading => True
  | .ready next? => ∃ token? listing, dashboard.entrance? index = some token? ∧
      replies.listing page.serial token? (.ok listing) ∧ next? = listing.next? ∧
      replies.Recorded page.serial false ⟨.ofListing listing, []⟩ page.items
  | .failed message => page.items = .empty ∧ ∃ token? error,
      dashboard.entrance? index = some token? ∧
      replies.listing page.serial token? (.error error) ∧ message = dashboard.failureText error

structure Accounted (replies : Replies) (dashboard : Dashboard) : Prop where
  coherent : dashboard.Coherent
  loads : ∀ load ∈ dashboard.loads, ∀ page, dashboard.page? load.page = some page →
    replies.LoadAccounted dashboard.unmounted load page.items
  pages : ∀ index page, dashboard.page? index = some page →
    replies.PageAccounted dashboard index page

variable {replies : Replies}

theorem Recorded.unmounted {serial : Nat} {unmounted : Bool} {load : PageLoad} {items : PageItems}
    (recorded : replies.Recorded serial unmounted load items) :
    replies.Recorded serial true load items := by
  obtain ⟨outcomes, same, answered, _⟩ := recorded
  exact ⟨outcomes, same, answered, fun mounted => nomatch mounted⟩

theorem recorded_start (replies : Replies) (serial : Nat) (unmounted : Bool)
    (listed : ListedPage) :
    replies.Recorded serial unmounted (.start listed) (PageLoad.start listed).placeholders := by
  refine ⟨[], rfl, ?_, ?_⟩
  · intro call member
    cases member
  · intro _ position entry present
    exact .inl (List.mem_range.mpr (List.getElem?_eq_some_iff.mp present).1)

theorem Recorded.take {serial : Nat} {unmounted : Bool} {load : PageLoad} {items : PageItems}
    (recorded : replies.Recorded serial unmounted load items) (position : Nat)
    (answer : Except StoreError StoredObject)
    (admitted : position ∈ load.waiting → ∀ entry,
      load.listed.entries[position]? = some entry → replies.fetch serial entry answer) :
    replies.Recorded serial unmounted (load.take unmounted position answer items).1
      (load.take unmounted position answer items).2 := by
  unfold PageLoad.take
  split
  · rename_i entry listens present
    have waiting : position ∈ load.waiting := List.contains_iff_mem.mp listens
    obtain ⟨outcomes, same, answered, covered⟩ := recorded
    -- The fetch that is answered now is either recorded or, after an unmount, of no account.
    have others (before : unmounted = false) (other : Nat) (found : ObjectEntry)
        (inside : load.listed.entries[other]? = some found) (different : other ≠ position) :
        other ∈ load.waiting.erase position ∨ found.key ∈ outcomes.map (·.1) :=
      (covered before other found inside).imp_left (List.mem_erase_of_ne different).mpr
    cases unmounted with
    | true => exact ⟨outcomes, same, answered, fun mounted => nomatch mounted⟩
    | false =>
        refine ⟨outcomes ++ [(entry.key, Pager.outcome entry answer)], ?_, ?_, ?_⟩
        · rw [PageItems.resolveAll_append, ← same]
          rfl
        · intro call member
          rcases List.mem_append.mp member with member | member
          · exact answered call member
          · exact ⟨entry, List.mem_of_getElem? present, answer, admitted waiting entry present,
              List.mem_singleton.mp member⟩
        · intro _ other found inside
          rw [List.map_append, List.mem_append]
          by_cases same : other = position
          · subst same
            rw [present] at inside
            cases inside
            exact .inr (.inr List.mem_cons_self)
          · exact (others rfl other found inside same).imp_right .inl
  · exact recorded

theorem fst_take (load : PageLoad) (cancelled : Bool) (position : Nat)
    (answer : Except StoreError StoredObject) (items others : PageItems) :
    (load.take cancelled position answer items).1 =
      (load.take cancelled position answer others).1 := by
  unfold PageLoad.take
  split <;> rfl

theorem listed_take (load : PageLoad) (cancelled : Bool) (position : Nat)
    (answer : Except StoreError StoredObject) (items : PageItems) :
    (load.take cancelled position answer items).1.listed = load.listed := by
  unfold PageLoad.take
  split <;> rfl

theorem LoadAccounted.unmounted {unmounted : Bool} {load : Load} {items : PageItems}
    (accounted : replies.LoadAccounted unmounted load items) :
    replies.LoadAccounted true load items := by
  cases stage : load.stage with
  | fetching fetching =>
      simp only [LoadAccounted, stage] at accounted ⊢
      exact ⟨accounted.1, accounted.2.unmounted⟩
  | _ =>
      simp only [LoadAccounted, stage] at accounted ⊢
      exact accounted

theorem PageAccounted.kept {before after : Dashboard} {event : Event} {index : Nat}
    {page : OpenPage} (accounted : replies.PageAccounted before index page)
    (coherent : before.Coherent) (change : Dashboard.Change before event after) :
    replies.PageAccounted after index page := by
  cases status : page.status with
  | loading => simp only [PageAccounted, status]
  | ready next? =>
      simp only [PageAccounted, status] at accounted ⊢
      obtain ⟨token?, listing, entrance, rest⟩ := accounted
      exact ⟨token?, listing, coherent.entrance_kept change entrance, rest⟩
  | failed message =>
      simp only [PageAccounted, status] at accounted ⊢
      obtain ⟨empty, token?, error, entrance, answered, text⟩ := accounted
      exact ⟨empty, token?, error, coherent.entrance_kept change entrance, answered,
        text.trans (Dashboard.failureText_of_change change error).symm⟩

theorem pageAccounted_of_loading (replies : Replies) (dashboard : Dashboard) (index : Nat)
    {page : OpenPage} (loading : page.status = .loading) :
    replies.PageAccounted dashboard index page := by
  simp only [PageAccounted, loading]

theorem LoadAccounted.published {before after : Dashboard} {load : Load} {page : OpenPage}
    {status : PageStatus} (accounted : replies.LoadAccounted before.unmounted load page.items)
    (verdict : before.verdict? load = some status) (mounted : before.unmounted = false)
    (serial : page.serial = load.serial)
    (entrance : after.entrance? load.page = some load.token?)
    (text : ∀ error, after.failureText error = before.failureText error) :
    replies.PageAccounted after load.page { page with status } := by
  unfold Dashboard.verdict? at verdict
  split at verdict
  · rename_i error stage
    simp only [LoadAccounted, stage] at accounted
    cases verdict
    exact ⟨accounted.1, load.token?, error, entrance, serial ▸ accounted.2, (text error).symm⟩
  · rename_i fetching stage
    split at verdict
    · rename_i finished
      cases verdict
      simp only [LoadAccounted, stage] at accounted
      obtain ⟨⟨listing, answered, listed⟩, recorded⟩ := accounted
      have waiting : fetching.waiting = [] := List.isEmpty_iff.mp finished
      obtain ⟨listing', waiting'⟩ := fetching
      subst listed waiting
      refine ⟨load.token?, listing, entrance, serial ▸ answered, rfl, ?_⟩
      rw [mounted] at recorded
      exact serial ▸ recorded
    · cases verdict
  · cases verdict

namespace Accounted

variable {before after : Dashboard} {event : Event}

theorem keep (accounted : replies.Accounted before) (change : Dashboard.Change before event after)
    (loads : ∀ load ∈ after.loads, ∀ page, after.page? load.page = some page →
      (load ∈ before.loads ∧ before.page? load.page = some page) ∨
        replies.LoadAccounted after.unmounted load page.items)
    (pages : ∀ index page, after.page? index = some page →
      before.page? index = some page ∨ replies.PageAccounted after index page) :
    replies.Accounted after where
  coherent := accounted.coherent.change change
  loads := by
    intro load member page found
    rcases loads load member page found with ⟨present, same⟩ | anew
    · have kept := accounted.loads load present page same
      cases unmounted : after.unmounted with
      | true => exact kept.unmounted
      | false => exact Dashboard.mounted_before change unmounted ▸ kept
    · exact anew
  pages := by
    intro index page found
    rcases pages index page found with same | anew
    · exact (accounted.pages index page same).kept accounted.coherent change
    · exact anew

theorem startLoad (accounted : replies.Accounted before) {page : Nat} {token? : Option String}
    (change : Dashboard.Change before event (before.startLoad page token?))
    (vacant : ∀ present, before.page? page = some present → present.status.isFailed) :
    replies.Accounted (before.startLoad page token?) := by
  refine accounted.keep change ?_ ?_
  · intro load member present found
    rw [Dashboard.page?_startLoad] at found
    rcases List.mem_append.mp member with old | new
    · rw [if_neg (accounted.coherent.page_ne_of_vacant vacant old)] at found
      exact .inl ⟨old, found⟩
    · obtain rfl := List.mem_singleton.mp new
      rw [if_pos rfl] at found
      cases found
      exact .inr rfl
  · intro index present found
    rw [Dashboard.page?_startLoad] at found
    by_cases same : index = page
    · rw [if_pos same] at found
      cases found
      exact .inr (pageAccounted_of_loading replies _ index rfl)
    · rw [if_neg same] at found
      exact .inl found

theorem goOn (accounted : replies.Accounted before) (change : Dashboard.Change before event after)
    {load : Load} (found : before.load? load.serial = some load) (stage : LoadStage)
    (items : PageItems → PageItems)
    (loads : after.loads = (before.setStage load.serial stage).loads)
    (pages : ∀ index, after.page? index = (before.updatePage load fun page =>
      { page with items := items page.items }).page? index)
    (fits : ∀ given, replies.LoadAccounted before.unmounted load given →
      replies.LoadAccounted after.unmounted { load with stage } (items given)) :
    replies.Accounted after := by
  have coherent := accounted.coherent
  have present := Dashboard.mem_of_load? found
  have elsewhere (index : Nat) (other : index ≠ load.page) :
      after.page? index = before.page? index := by
    rw [pages, coherent.page?_updatePage present, if_neg other]
  refine accounted.keep change ?_ ?_
  · intro other member page foundPage
    rw [loads, Dashboard.mem_setStage] at member
    rcases member with ⟨old, different⟩ | ⟨old, oldMember, same, rfl⟩
    · rw [elsewhere other.page (coherent.page_ne old present different)] at foundPage
      exact .inl ⟨old, foundPage⟩
    · obtain rfl := coherent.load_unique oldMember present same
      rw [pages, coherent.page?_updatePage present, if_pos rfl] at foundPage
      obtain ⟨given, foundGiven, rfl⟩ := Option.map_eq_some_iff.mp foundPage
      exact .inr (fits given.items (accounted.loads old present given foundGiven))
  · intro index page foundPage
    by_cases same : index = load.page
    · rw [pages, coherent.page?_updatePage present, if_pos same] at foundPage
      obtain ⟨given, foundGiven, rfl⟩ := Option.map_eq_some_iff.mp foundPage
      have loading := (coherent.filled present (same ▸ foundGiven)).2
      exact .inr (pageAccounted_of_loading replies after index loading)
    · exact .inl ((elsewhere index same).symm.trans foundPage)

theorem published (accounted : replies.Accounted before) {load : Load} {status : PageStatus}
    (change : Dashboard.Change before event (before.published load status))
    (found : before.load? load.serial = some load)
    (verdict : before.verdict? load = some status) (mounted : before.unmounted = false) :
    replies.Accounted (before.published load status) := by
  have coherent := accounted.coherent
  have present := Dashboard.mem_of_load? found
  have lookup := coherent.page?_published present status
  refine accounted.keep change ?_ ?_
  · intro other member page foundPage
    obtain ⟨old, different⟩ := (Dashboard.mem_dropLoad ..).mp member
    rw [lookup, if_neg (coherent.page_ne old present different)] at foundPage
    exact .inl ⟨old, foundPage⟩
  · intro index page foundPage
    by_cases same : index = load.page
    · subst same
      rw [lookup, if_pos rfl] at foundPage
      obtain ⟨given, foundGiven, rfl⟩ := Option.map_eq_some_iff.mp foundPage
      have shown := accounted.loads load present given foundGiven
      have entrance := coherent.entrance_kept change (coherent.entered load present)
      exact .inr (shown.published verdict mounted (coherent.filled present foundGiven).1 entrance
        (Dashboard.failureText_of_change change))
    · rw [lookup, if_neg same] at foundPage
      exact .inl foundPage

theorem mounted (replies : Replies) (pager : Pager) (location : String) (probing : Bool) :
    replies.Accounted (.mount pager location probing) where
  coherent := .mounted pager location probing
  loads := by
    intro load member page found
    obtain rfl := List.mem_singleton.mp member
    cases found
    rfl
  pages := by
    intro index page found
    rw [Dashboard.mount, Dashboard.page?_startLoad] at found
    split at found
    · cases found
      exact pageAccounted_of_loading replies _ index rfl
    · cases found

theorem change (accounted : replies.Accounted before) (change : Dashboard.Change before event after)
    (admitted : replies.Admits before event) : replies.Accounted after := by
  have whole := change
  -- A step that leaves both the pages and the loads leaves the accounts.
  have unmoved (pages : ∀ index, after.page? index = before.page? index)
      (loads : ∀ load ∈ after.loads, load ∈ before.loads) : replies.Accounted after := by
    refine accounted.keep whole ?_ ?_
    · intro load member page found
      exact .inl ⟨loads load member, (pages load.page).symm.trans found⟩
    · intro index page found
      exact .inl ((pages index).symm.trans found)
  have unwritten (load : Load) (index : Nat) : before.page? index =
      (before.updatePage load fun page => { page with items := id page.items }).page? index :=
    congrArg (List.lookup index) (before.pages_updatePage_of_fixed load _ fun _ => rfl).symm
  -- One account per stage of a load: what the store has said up to that stage.
  cases change with
  | start command page token? mounted reachable vacant => exact accounted.startLoad whole vacant
  | ask load found asking =>
      refine accounted.goOn whole found .listing id rfl (unwritten load) ?_
      intro given kept
      simp only [LoadAccounted, asking] at kept
      exact kept
  | list load answer found listing =>
      refine accounted.goOn whole found (.ofAnswer answer) id rfl (unwritten load) ?_
      intro given kept
      have answered := admitted load found listing
      simp only [LoadAccounted, listing] at kept
      cases answer with
      | ok page => exact ⟨kept, page, answered, rfl⟩
      | error error => exact ⟨kept, answered⟩
  | place load listed found stage mounted =>
      refine accounted.goOn whole found (.fetching (.start listed))
        (fun _ => (PageLoad.start listed).placeholders) rfl (fun _ => rfl) ?_
      intro given kept
      simp only [LoadAccounted, stage] at kept
      exact ⟨kept.2, recorded_start replies load.serial _ listed⟩
  | fetch load fetching position answer found stage =>
      refine accounted.goOn whole found
        (.fetching (fetching.take before.unmounted position answer .empty).1)
        (fun items => (fetching.take before.unmounted position answer items).2) rfl
        (fun _ => rfl) ?_
      intro given kept
      simp only [LoadAccounted, stage] at kept
      obtain ⟨⟨page, answered, listed⟩, recorded⟩ := kept
      refine ⟨⟨page, answered, (listed_take ..).trans listed⟩, ?_⟩
      rw [fst_take fetching _ position answer .empty given]
      exact recorded.take position answer fun waiting entry inside =>
        admitted load fetching entry found stage waiting inside
  | publish load status found verdict mounted =>
      exact accounted.published whole found verdict mounted
  | abandon event load found unmounted =>
      exact unmoved (fun _ => rfl) fun other member => ((Dashboard.mem_dropLoad ..).mp member).1
  | _ => exact unmoved (fun _ => rfl) fun _ member => member

end Accounted

end Replies

end CrawlBoard
