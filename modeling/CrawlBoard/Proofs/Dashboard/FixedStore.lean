import CrawlBoard.Proofs.Dashboard.Replies
/-!
A dashboard at a store that stays the same while it is read. Which of the awaited answers comes
next is open, but what it says is up to the store.
-/

namespace CrawlBoard

/-- A store that gives the same answer to the same call. -/
structure FixedStore where
  list : ListQuery → Except StoreError ObjectPage
  fetch : String → Except StoreError StoredObject

namespace FixedStore

def reply (store : FixedStore) : StoreCall → Event
  | .count query => .takeCount (store.list query)
  | .listing serial query => .takeListing serial (store.list query)
  | .fetch serial position key => .takeFetch serial position (store.fetch key)

def replies (store : FixedStore) (pager : Pager) : Replies where
  listing _ token? answer := answer = store.list (pager.query token?)
  fetch _ entry answer := answer = store.fetch entry.key

def item (store : FixedStore) (entry : ObjectEntry) : Item :=
  ⟨entry.key, .ofOutcome (Pager.outcome entry (store.fetch entry.key))⟩

theorem report?_item (store : FixedStore) (entry : ObjectEntry) :
    (store.item entry).report? = (Pager.fetched entry (store.fetch entry.key)).toOption := by
  unfold item Pager.outcome
  cases Pager.fetched entry (store.fetch entry.key) <;> rfl

theorem items_of_recorded {store : FixedStore} {pager : Pager} {serial : Nat}
    {listed : ListedPage} {items : PageItems} (nodup : listed.keys.Nodup)
    (recorded : (store.replies pager).Recorded serial false ⟨listed, []⟩ items) :
    items.items = listed.entries.map store.item := by
  obtain ⟨outcomes, same, answered, covered⟩ := recorded
  rw [same, PageItems.items_resolveAll_ofKeys, PageItems.distinct_of_nodup nodup,
    ListedPage.keys, List.map_map]
  apply List.map_congr_left
  intro entry member
  obtain ⟨position, present⟩ := List.mem_iff_getElem?.mp member
  have awaited := covered rfl position entry present
  have known : entry.key ∈ outcomes.map (·.1) := awaited.resolve_left List.not_mem_nil
  obtain ⟨outcome, found⟩ :=
    Option.isSome_iff_exists.mp ((Lookup.lookup_isSome_iff_mem ..).mpr known)
  -- Only the entry itself has been fetched under its key.
  obtain ⟨other, otherMember, answer, given, pair⟩ :=
    answered _ (Lookup.mem_of_lookup_eq_some found)
  obtain ⟨sameKey, rfl⟩ := Prod.mk.inj pair
  obtain rfl : other = entry :=
    List.inj_on_of_nodup_map nodup otherMember member sameKey.symm
  have fetched : answer = store.fetch other.key := given
  simp only [Function.comp, found, item, ItemStatus.ofOutcome?, fetched]

end FixedStore

namespace Dashboard

def awaited? (dashboard : Dashboard) : Event → Option StoreCall
  | .takeListing serial _ => do
      let load ← dashboard.load? serial
      match load.stage with
      | .listing => some (.listing serial (dashboard.pager.query load.token?))
      | _ => none
  | .takeFetch serial position _ => do
      let load ← dashboard.load? serial
      match load.stage with
      | .fetching fetching =>
          if fetching.waiting.contains position then
            fetching.listed.entries[position]?.map fun entry => .fetch serial position entry.key
          else none
      | _ => none
  | .takeCount _ =>
      match dashboard.count? with
      | some (.waiting token? _) => some (.count (dashboard.pager.countQuery token?))
      | _ => none
  | _ => none

variable (store : FixedStore)

def answered (dashboard : Dashboard) (event : Event) : Event :=
  ((dashboard.awaited? event).map store.reply).getD event

/-- A run in which all awaited answers are the store's. -/
def runAt (dashboard : Dashboard) (events : List Event) : Dashboard :=
  events.foldl (fun dashboard event => (dashboard.step (dashboard.answered store event)).1)
    dashboard

/-- An event that brings an awaited answer brings the store's. -/
def Served (dashboard : Dashboard) (event : Event) : Prop :=
  ∀ call, dashboard.awaited? event = some call → event = store.reply call

variable {store}

theorem awaited?_takeListing (dashboard : Dashboard) (serial : Nat)
    (answer : Except StoreError ObjectPage) (call : StoreCall) :
    dashboard.awaited? (.takeListing serial answer) = some call ↔ ∃ load,
      dashboard.load? serial = some load ∧ load.stage = .listing ∧
        call = .listing serial (dashboard.pager.query load.token?) := by
  simp only [awaited?, Option.bind_eq_bind, Option.bind_eq_some_iff]
  refine exists_congr fun load => and_congr_right fun _ => ?_
  cases stage : load.stage with
  | listing => simp [eq_comm]
  | _ => simp

theorem awaited?_takeFetch (dashboard : Dashboard) (serial position : Nat)
    (answer : Except StoreError StoredObject) (call : StoreCall) :
    dashboard.awaited? (.takeFetch serial position answer) = some call ↔ ∃ load fetching entry,
      dashboard.load? serial = some load ∧ load.stage = .fetching fetching ∧
        position ∈ fetching.waiting ∧ fetching.listed.entries[position]? = some entry ∧
        call = .fetch serial position entry.key := by
  simp only [awaited?, Option.bind_eq_bind, Option.bind_eq_some_iff]
  apply exists_congr
  intro load
  cases stage : load.stage with
  | fetching fetching => simp [Option.map_eq_some_iff, @eq_comm _ call]
  | _ => simp

theorem awaited?_takeCount (dashboard : Dashboard) (answer : Except StoreError ObjectPage)
    (call : StoreCall) :
    dashboard.awaited? (.takeCount answer) = some call ↔ ∃ token? counted,
      dashboard.count? = some (.waiting token? counted) ∧
        call = .count (dashboard.pager.countQuery token?) := by
  simp only [awaited?]
  cases dashboard.count? with
  | none => simp
  | some pass => cases pass <;> simp [eq_comm]

theorem awaited?_reply (dashboard : Dashboard) {event : Event} {call : StoreCall}
    (awaited : dashboard.awaited? event = some call) :
    dashboard.awaited? (store.reply call) = some call := by
  cases event with
  | takeListing serial answer =>
      obtain ⟨load, found, listing, rfl⟩ := (awaited?_takeListing ..).mp awaited
      exact (awaited?_takeListing ..).mpr ⟨load, found, listing, rfl⟩
  | takeFetch serial position answer =>
      obtain ⟨load, fetching, entry, found, stage, waiting, present, rfl⟩ :=
        (awaited?_takeFetch ..).mp awaited
      exact (awaited?_takeFetch ..).mpr
        ⟨load, fetching, entry, found, stage, waiting, present, rfl⟩
  | takeCount answer =>
      obtain ⟨token?, counted, waiting, rfl⟩ := (awaited?_takeCount ..).mp awaited
      exact (awaited?_takeCount ..).mpr ⟨token?, counted, waiting, rfl⟩
  | _ => cases awaited

theorem load?_of_made {dashboard : Dashboard} {serial : Nat}
    {act : Load → Dashboard × List StoreCall} {call : StoreCall}
    (made : call ∈ (((dashboard.load? serial).map act).getD (dashboard, [])).2) :
    ∃ load, dashboard.load? serial = some load ∧ call ∈ (act load).2 ∧ load.serial = serial := by
  cases found : dashboard.load? serial with
  | none =>
      rw [found] at made
      cases made
  | some load =>
      rw [found] at made
      exact ⟨load, rfl, made, (load_of_load? dashboard serial load found).2⟩

theorem mem_fetchCalls (serial : Nat) (listed : ListedPage) (call : StoreCall)
    (member : call ∈ fetchCalls serial listed) :
    ∃ position entry, listed.entries[position]? = some entry ∧
      call = .fetch serial position entry.key := by
  obtain ⟨⟨key, position⟩, numbered, rfl⟩ := List.mem_map.mp member
  have present := List.mk_mem_zipIdx_iff_getElem?.mp numbered
  rw [ListedPage.keys, List.getElem?_map] at present
  obtain ⟨entry, inside, rfl⟩ := Option.map_eq_some_iff.mp present
  exact ⟨position, entry, inside, rfl⟩

theorem served_answered (dashboard : Dashboard) (event : Event) :
    dashboard.Served store (dashboard.answered store event) := by
  intro call awaited
  unfold answered at awaited ⊢
  cases known : dashboard.awaited? event with
  | none => simp [known] at awaited
  | some other =>
      rw [known] at awaited
      cases (dashboard.awaited?_reply known).symm.trans awaited
      rfl

theorem runAt_keeps (dashboard : Dashboard) (invariant : Dashboard → Prop)
    (keeps : ∀ before event after, before.pager = dashboard.pager → invariant before →
      Change before event after → before.Served store event → invariant after)
    (initial : invariant dashboard) (events : List Event) :
    invariant (dashboard.runAt store events) := by
  have fromAny (current : Dashboard) (same : current.pager = dashboard.pager)
      (kept : invariant current) : invariant (current.runAt store events) := by
    induction events generalizing current with
    | nil => exact kept
    | cons event events ih =>
        have change := step_change current (current.answered store event)
        exact ih _ ((pager_of_change change).trans same)
          (keeps current _ _ same kept change (current.served_answered event))
  exact fromAny dashboard rfl initial

theorem runAt_append (dashboard : Dashboard) (earlier later : List Event) :
    dashboard.runAt store (earlier ++ later) = (dashboard.runAt store earlier).runAt store later :=
  List.foldl_append

theorem Coherent.ready_runAt {dashboard : Dashboard} (coherent : Coherent dashboard)
    (store : FixedStore) {index : Nat} {page : OpenPage} {next? : Option String}
    (found : dashboard.page? index = some page) (ready : page.status = .ready next?)
    (events : List Event) :
    (dashboard.runAt store events).page? index = some page := by
  refine (runAt_keeps dashboard (fun later => later.Coherent ∧ later.page? index = some page) ?_
    ⟨coherent, found⟩ events).2
  intro before event after _ kept change _
  exact ⟨kept.1.change change, kept.1.ready_kept change kept.2 ready⟩

theorem admits_of_served {dashboard : Dashboard} {event : Event}
    (served : dashboard.Served store event) :
    (store.replies dashboard.pager).Admits dashboard event := by
  cases event with
  | takeListing serial answer =>
      intro load found listing
      cases served _ ((awaited?_takeListing ..).mpr ⟨load, found, listing, rfl⟩)
      rfl
  | takeFetch serial position answer =>
      intro load fetching entry found stage waiting present
      cases served _ ((awaited?_takeFetch ..).mpr
        ⟨load, fetching, entry, found, stage, waiting, present, rfl⟩)
      rfl
  | _ => trivial

theorem accounted_of_served {pager : Pager} {before after : Dashboard} {event : Event}
    (accounted : (store.replies pager).Accounted before) (same : before.pager = pager)
    (change : Change before event after) (served : before.Served store event) :
    (store.replies pager).Accounted after :=
  accounted.change change (same ▸ admits_of_served served)

theorem accounted_runAt (store : FixedStore) (pager : Pager) (location : String) (probing : Bool)
    (events : List Event) :
    (store.replies pager).Accounted ((mount pager location probing).runAt store events) := by
  refine runAt_keeps _ (store.replies pager).Accounted ?_ (.mounted ..) events
  intro before event after same accounted change served
  exact accounted_of_served accounted same change served

end Dashboard

theorem Replies.Accounted.listing_of_ready {store : FixedStore} {pager : Pager}
    {dashboard : Dashboard} (accounted : (store.replies pager).Accounted dashboard) {index : Nat}
    {page : OpenPage} {next? : Option String} (found : dashboard.page? index = some page)
    (ready : page.status = .ready next?) :
    ∃ token? listing, dashboard.entrance? index = some token? ∧
      store.list (pager.query token?) = .ok listing ∧ next? = listing.next? ∧
      (store.replies pager).Recorded page.serial false ⟨.ofListing listing, []⟩ page.items := by
  have shown := accounted.pages index page found
  simp only [Replies.PageAccounted, ready] at shown
  obtain ⟨token?, listing, entrance, answered, same, recorded⟩ := shown
  exact ⟨token?, listing, entrance, answered.symm, same, recorded⟩

end CrawlBoard
