import CrawlBoard.Dashboard.Snapshot
import CrawlBoard.Proofs.Dashboard.History
import CrawlBoard.Proofs.Dashboard.Replies

namespace CrawlBoard

@[simp] theorem PageLoad.keys_take (load : PageLoad) (cancelled : Bool) (position : Nat)
    (answer : Except StoreError StoredObject) (items : PageItems) :
    (load.take cancelled position answer items).2.keys = items.keys := by
  unfold PageLoad.take
  split
  · split <;> simp
  · rfl

namespace Replies

variable {replies : Replies}

theorem Recorded.keys {serial : Nat} {unmounted : Bool} {load : PageLoad} {items : PageItems}
    (recorded : replies.Recorded serial unmounted load items) :
    items.keys = PageItems.distinct load.listed.keys := by
  obtain ⟨outcomes, rfl, _⟩ := recorded
  exact PageItems.keys_resolveAll_ofKeys ..

theorem Recorded.settled {serial : Nat} {listed : ListedPage} {items : PageItems}
    (recorded : replies.Recorded serial false ⟨listed, []⟩ items) : items.settled := by
  obtain ⟨outcomes, rfl, _, covered⟩ := recorded
  refine (PageItems.settled_resolveAll_ofKeys ..).mpr ?_
  intro key member
  obtain ⟨entry, present, rfl⟩ := List.mem_map.mp member
  obtain ⟨position, found⟩ := List.mem_iff_getElem?.mp present
  have known := (covered rfl position entry found).resolve_left List.not_mem_nil
  exact (Lookup.lookup_isSome_iff_mem ..).mpr known

def ShowsListing (replies : Replies) (page : OpenPage) : Prop :=
  ∃ token? listing, replies.listing page.serial token? (.ok listing) ∧
    page.items.keys = PageItems.distinct (ListedPage.ofListing listing).keys

def Whole (replies : Replies) (dashboard : Dashboard) : Prop :=
  ∀ index page, dashboard.page? index = some page →
    page.items.keys = [] ∨ replies.ShowsListing page

namespace Whole

variable {before after : Dashboard} {event : Event}

theorem mounted (replies : Replies) (pager : Pager) (location : String) (probing : Bool) :
    replies.Whole (.mount pager location probing) := by
  intro index page found
  rw [Dashboard.mount, Dashboard.page?_startLoad] at found
  split at found
  · cases found
    exact .inl rfl
  · cases found

theorem updatePage (whole : replies.Whole before) (load : Load) (change : OpenPage → OpenPage)
    (serial : ∀ page, (change page).serial = page.serial)
    (keys : ∀ page, (change page).items.keys = page.items.keys) :
    replies.Whole (before.updatePage load change) := by
  intro index page found
  rw [Dashboard.page?_updatePage] at found
  obtain ⟨old, foundOld, rfl⟩ := Option.map_eq_some_iff.mp found
  have kept := whole index old foundOld
  split
  · simpa only [ShowsListing, serial, keys] using kept
  · exact kept

theorem placed (whole : replies.Whole before) (accounted : replies.Accounted before) {load : Load}
    {listed : ListedPage} (found : before.load? load.serial = some load)
    (stage : load.stage = .listed listed) : replies.Whole (before.placed load listed) := by
  have member := Dashboard.mem_of_load? found
  intro index page foundPage
  rw [Dashboard.page?_placed, accounted.coherent.page?_updatePage member] at foundPage
  by_cases own : index = load.page
  · subst own
    rw [if_pos rfl] at foundPage
    obtain ⟨old, foundOld, rfl⟩ := Option.map_eq_some_iff.mp foundPage
    have answered := accounted.loads load member old foundOld
    simp only [LoadAccounted, stage] at answered
    obtain ⟨_, listing, given, rfl⟩ := answered
    have serial := (accounted.coherent.filled member foundOld).1
    exact .inr ⟨load.token?, listing, serial ▸ given, PageItems.keys_ofKeys _⟩
  · rw [if_neg own] at foundPage
    exact whole index page foundPage

theorem change (whole : replies.Whole before) (accounted : replies.Accounted before)
    (change : Dashboard.Change before event after) : replies.Whole after := by
  cases change with
  | start command opened token? mounted reachable vacant =>
      intro index page found
      rw [Dashboard.page?_startLoad] at found
      split at found
      · cases found
        exact .inl rfl
      · exact whole index page found
  | place load listed found stage mounted => exact whole.placed accounted found stage
  | fetch load fetching position answer found stage =>
      intro index page foundPage
      rw [Dashboard.page?_fetched] at foundPage
      refine whole.updatePage load _ ?_ ?_ index page foundPage
      · exact fun _ => rfl
      · exact fun page => fetching.keys_take before.unmounted position answer page.items
  | publish load status found verdict mounted =>
      intro index page foundPage
      rw [Dashboard.page?_published] at foundPage
      exact whole.updatePage load (fun page => { page with status }) (fun _ => rfl) (fun _ => rfl)
        index page foundPage
  | _ => exact whole

end Whole

namespace Accounted

variable {dashboard : Dashboard} {index : Nat} {page : OpenPage}

theorem failed_page (accounted : replies.Accounted dashboard)
    (found : dashboard.page? index = some page) {message : String}
    (failed : page.status = .failed message) :
    page.items = .empty ∧ ∃ token? error, replies.listing page.serial token? (.error error) := by
  have shown := accounted.pages index page found
  simp only [PageAccounted, failed] at shown
  obtain ⟨empty, token?, error, _, answered, _⟩ := shown
  exact ⟨empty, token?, error, answered⟩

theorem settled_page (accounted : replies.Accounted dashboard)
    (found : dashboard.page? index = some page) {next? : Option String}
    (ready : page.status = .ready next?) :
    page.items.settled ∧ replies.ShowsListing page := by
  have shown := accounted.pages index page found
  simp only [PageAccounted, ready] at shown
  obtain ⟨token?, listing, _, answered, _, recorded⟩ := shown
  exact ⟨recorded.settled, token?, listing, answered, recorded.keys⟩

theorem pending_of_ended (accounted : replies.Accounted dashboard)
    (found : dashboard.page? index = some page) (ended : page.status ≠ .loading) :
    page.items.pending = 0 := by
  cases status : page.status with
  | loading => exact absurd status ended
  | ready next? => exact of_decide_eq_true (accounted.settled_page found status).1
  | failed message =>
      rw [(accounted.failed_page found status).1]
      rfl

end Accounted

end Replies

namespace Dashboard

/-- A load gets the answer to its listing while it waits for it. -/
def Received (dashboard : Dashboard) (events : List Event) (serial : Nat)
    (answer : Except StoreError ObjectPage) : Prop :=
  ∃ before load, (before, Event.takeListing serial answer) ∈ dashboard.steps events ∧
    before.load? serial = some load ∧ load.stage = .listing

structure Answered (serial : Nat) (dashboard : Dashboard) : Prop where
  started : serial < dashboard.serial
  stage : ∀ load ∈ dashboard.loads, load.serial = serial →
    load.stage ≠ .asking ∧ load.stage ≠ .listing

namespace Answered

variable {before after : Dashboard} {event : Event} {serial : Nat}

theorem setStage (answered : Answered serial before) (moved : Nat) (stage : LoadStage)
    (onward : moved = serial → stage ≠ .asking ∧ stage ≠ .listing) :
    Answered serial (before.setStage moved stage) where
  started := answered.started
  stage := by
    intro load member same
    rcases (mem_setStage ..).mp member with ⟨present, _⟩ | ⟨old, present, rfl, rfl⟩
    · exact answered.stage load present same
    · exact onward same

theorem dropLoad (answered : Answered serial before) (dropped : Nat) :
    Answered serial (before.dropLoad dropped) where
  started := answered.started
  stage load member := answered.stage load ((mem_dropLoad ..).mp member).1

theorem change (answered : Answered serial before) (change : Change before event after) :
    Answered serial after := by
  cases change with
  | start command page token? mounted reachable vacant =>
      refine ⟨Nat.lt_succ_of_lt answered.started, ?_⟩
      intro load member same
      rcases List.mem_append.mp member with present | new
      · exact answered.stage load present same
      · obtain rfl := List.mem_singleton.mp new
        exact absurd same (Nat.ne_of_gt answered.started)
  | ask load found asking =>
      refine answered.setStage load.serial .listing ?_
      intro same
      exact absurd asking (answered.stage load (mem_of_load? found) same).1
  | list load answer found listing =>
      refine answered.setStage load.serial (.ofAnswer answer) ?_
      intro same
      exact absurd listing (answered.stage load (mem_of_load? found) same).2
  | place load listed found stage mounted =>
      have rewritten : Answered serial (before.updatePage load fun page =>
        { page with items := (PageLoad.start listed).placeholders }) := { answered with }
      exact rewritten.setStage load.serial _ fun _ => ⟨nofun, nofun⟩
  | fetch load fetching position answer found stage =>
      have rewritten : Answered serial (before.updatePage load fun page => { page with
        items := (fetching.take before.unmounted position answer page.items).2 }) :=
        { answered with }
      exact rewritten.setStage load.serial _ fun _ => ⟨nofun, nofun⟩
  | publish load status found verdict mounted =>
      exact { answered.dropLoad load.serial with }
  | abandon event load found unmounted => exact answered.dropLoad load.serial
  | _ => exact { answered with }

theorem run (answered : Answered serial before) (events : List Event) :
    Answered serial (before.run events) :=
  run_keeps (Answered serial) (fun _ _ _ kept step => kept.change step) before answered events

theorem not_received (answered : Answered serial before) (events : List Event)
    (answer : Except StoreError ObjectPage) : ¬ before.Received events serial answer := by
  rintro ⟨state, load, taken, found, listing⟩
  obtain ⟨earlier, _, _, rfl⟩ := exists_split_of_mem_steps taken
  obtain ⟨member, same⟩ := load_of_load? _ serial load found
  exact ((answered.run earlier).stage load member same).2 listing

end Answered

theorem Coherent.answered_of_listing {before : Dashboard} (coherent : Coherent before)
    {serial : Nat} {load : Load} (found : before.load? serial = some load)
    (listing : load.stage = .listing) (answer : Except StoreError ObjectPage) :
    Answered serial (before.step (.takeListing serial answer)).1 := by
  obtain ⟨member, rfl⟩ := load_of_load? before serial load found
  have taken : (before.step (.takeListing load.serial answer)).1 =
      before.setStage load.serial (.ofAnswer answer) := by
    simp only [step, found, Option.map_some, Option.getD_some]
    cases answer <;> simp [takeListing, listing, LoadStage.ofAnswer]
  rw [taken]
  refine ⟨coherent.fresh load member, ?_⟩
  intro other otherMember same
  rcases (mem_setStage ..).mp otherMember with ⟨_, different⟩ | ⟨old, _, _, rfl⟩
  · exact absurd same different
  · cases answer <;> simp [LoadStage.ofAnswer]

theorem Coherent.received_unique {dashboard : Dashboard} (coherent : Coherent dashboard)
    {events : List Event} {serial : Nat} {first second : Except StoreError ObjectPage}
    (one : dashboard.Received events serial first)
    (other : dashboard.Received events serial second) : first = second := by
  induction events generalizing dashboard with
  | nil =>
      obtain ⟨_, _, taken, _⟩ := one
      cases taken
  | cons event rest ih =>
      obtain ⟨before, load, taken, found, listing⟩ := one
      obtain ⟨before', load', taken', found', listing'⟩ := other
      rcases List.mem_cons.mp taken with now | afterwards
      · cases now
        rcases List.mem_cons.mp taken' with now' | afterwards'
        · cases now'
          rfl
        · have answered := coherent.answered_of_listing found listing first
          exact (answered.not_received rest second
            ⟨before', load', afterwards', found', listing'⟩).elim
      · rcases List.mem_cons.mp taken' with now' | afterwards'
        · cases now'
          have answered := coherent.answered_of_listing found' listing' second
          exact (answered.not_received rest first ⟨before, load, afterwards, found, listing⟩).elim
        · exact ih (coherent.change (step_change dashboard event))
            ⟨before, load, afterwards, found, listing⟩
            ⟨before', load', afterwards', found', listing'⟩

theorem Received.append {dashboard : Dashboard} {events : List Event} {serial : Nat}
    {answer : Except StoreError ObjectPage} (received : dashboard.Received events serial answer)
    (later : List Event) : dashboard.Received (events ++ later) serial answer := by
  obtain ⟨before, load, taken, waiting⟩ := received
  refine ⟨before, load, ?_, waiting⟩
  rw [steps_append]
  exact List.mem_append_left _ taken

def heard (dashboard : Dashboard) (events : List Event) : Replies where
  listing serial _ answer := dashboard.Received events serial answer
  fetch _ _ _ := True

theorem heard_run (pager : Pager) (location : String) (probing : Bool) (events : List Event) :
    let mounted := mount pager location probing
    (mounted.heard events).Accounted (mounted.run events) ∧
      (mounted.heard events).Whole (mounted.run events) := by
  intro mounted
  refine run_keeps_of_steps (fun state => (mounted.heard events).Accounted state ∧
    (mounted.heard events).Whole state) ?_ ⟨.mounted .., Replies.Whole.mounted _ pager location probing⟩
  rintro before event taken ⟨accounted, whole⟩
  have change := step_change before event
  have admitted : (mounted.heard events).Admits before event := by
    cases event with
    | takeListing serial answer =>
        intro load found listing
        exact ⟨before, load, taken, found, listing⟩
    | takeFetch serial position answer =>
        intro _ _ _ _ _ _ _
        trivial
    | _ => trivial
  exact ⟨accounted.change change admitted, whole.change accounted change⟩

variable {pager : Pager} {location : String} {probing : Bool}

theorem received_iff_of_shown {events : List Event} {page : OpenPage}
    (shown : ((mount pager location probing).heard events).ShowsListing page) :
    ∃ listing : ObjectPage,
      (∀ answer, (mount pager location probing).Received events page.serial answer ↔
        answer = .ok listing) ∧
      page.items.keys = PageItems.distinct (ListedPage.ofListing listing).keys := by
  obtain ⟨_, listing, received, keys⟩ := shown
  refine ⟨listing, ?_, keys⟩
  intro answer
  constructor
  · exact fun other => (Coherent.mounted ..).received_unique other received
  · rintro rfl
    exact received

theorem pending_laterItems (events later : List Event) {index : Nat} {page : OpenPage}
    (found : ((mount pager location probing).run events).page? index = some page)
    (ended : page.status ≠ .loading) :
    (((mount pager location probing).run (events ++ later)).laterItems index page).pending = 0 := by
  obtain ⟨accounted, _⟩ := heard_run pager location probing events
  obtain ⟨accountedLater, whole⟩ := heard_run pager location probing (events ++ later)
  have now := accounted.pending_of_ended found ended
  unfold laterItems
  split
  · rename_i present foundLater
    split
    · rename_i same
      by_cases loadingLater : present.status = .loading
      · -- Then the page had failed, and its load never got a listing to show.
        rcases whole index present foundLater with none | ⟨_, listing, received, _⟩
        · have empty : present.items.items = [] := List.map_eq_nil_iff.mp none
          simp [PageItems.pending, empty]
        · cases status : page.status with
          | loading => exact absurd status ended
          | ready next? =>
              have kept := accounted.coherent.ready_run later found status
              rw [← run_append, foundLater] at kept
              cases kept
              exact now
          | failed message =>
              obtain ⟨_, _, error, refused⟩ := accounted.failed_page found status
              have refusedLater := Received.append refused later
              cases (Coherent.mounted ..).received_unique refusedLater (same ▸ received)
      · exact accountedLater.pending_of_ended foundLater loadingLater
    · exact now
  · exact now

/-- A page whose load has failed shows no items. A page that is ready shows those of the one
listing that its load was answered with, none of them loading; before, it shows all keys of that
listing or none. A snapshot that says a page is not loading has no pending items, whatever has
happened between the look at the page and the look at its items. -/
theorem settled_pages_show_their_listing (pager : Pager) (location : String) (probing : Bool)
    (events : List Event) :
    let mounted := mount pager location probing
    let dashboard := mounted.run events
    let showsListing (page : OpenPage) := ∃ listing : ObjectPage,
      (∀ answer, mounted.Received events page.serial answer ↔ answer = .ok listing) ∧
      page.items.keys =
        PageItems.distinct ((listing.entries.filter ObjectEntry.isReport).map (·.key))
    (∀ index page, dashboard.page? index = some page →
      (∀ message, page.status = .failed message → page.items.items = []) ∧
      (∀ next?, page.status = .ready next? →
        (∀ item ∈ page.items.items, item.isLoading = false) ∧ showsListing page) ∧
      (page.status = .loading → page.items.items = [] ∨ showsListing page)) ∧
    ∀ later index snapshot, dashboard.snapshotBetween (dashboard.run later) index = some snapshot →
      snapshot.loading = false → snapshot.pending = 0 := by
  intro mounted dashboard showsListing
  obtain ⟨accounted, whole⟩ := heard_run pager location probing events
  refine ⟨?_, ?_⟩
  · intro index page found
    refine ⟨?_, ?_, ?_⟩
    · intro message failed
      rw [(accounted.failed_page found failed).1]
      rfl
    · intro next? ready
      obtain ⟨settled, shown⟩ := accounted.settled_page found ready
      refine ⟨?_, received_iff_of_shown shown⟩
      intro item member
      exact decide_eq_false ((PageItems.settled_iff _).mp settled item member)
    · intro loading
      rcases whole index page found with none | shown
      · exact .inl (List.map_eq_nil_iff.mp none)
      · exact .inr (received_iff_of_shown shown)
  · intro later index snapshot taken settled
    obtain ⟨page, found, rfl⟩ := Option.map_eq_some_iff.mp taken
    have ended : page.status ≠ .loading := of_decide_eq_false settled
    have quiet := pending_laterItems events later found ended
    rw [run_append] at quiet
    exact quiet

/-- A page that had failed when it was looked up is loading again when its items are read, and is
ready in the end. -/
theorem failed_page_read_during_retry_has_no_pending_item :
    let mounted := mount (.ofPrefix "") "store" false
    let failing := [.askListing 0, .takeListing 0 (.error (.notFound "")), .publish 0]
    let retrying := [.command (.navigate 0), .askListing 1,
      .takeListing 1 (.ok ⟨[⟨"a.json", none⟩], none⟩), .place 1]
    let ending := [.takeFetch 1 0 (.error (.notFound "a.json")), .publish 1]
    let dashboard := mounted.run failing
    (∃ page, dashboard.page? 0 = some page ∧ page.items.items = []) ∧
    ((dashboard.run retrying).page? 0).any (fun page => page.items.pending = 1) ∧
    (∃ snapshot, dashboard.snapshotBetween (dashboard.run retrying) 0 = some snapshot ∧
      snapshot.loading = false ∧ snapshot.pending = 0) ∧
    ∃ page, (mounted.run (failing ++ retrying ++ ending)).page? 0 = some page ∧
      (∀ item ∈ page.items.items, item.isLoading = false) ∧
      ∃ listing : ObjectPage, page.items.keys =
        PageItems.distinct ((listing.entries.filter ObjectEntry.isReport).map (·.key)) := by
  intro mounted failing retrying ending dashboard
  have settles := settled_pages_show_their_listing (.ofPrefix "") "store" false
  obtain ⟨pages, snapshots⟩ := settles failing
  obtain ⟨pagesAfter, _⟩ := settles (failing ++ retrying ++ ending)
  refine ⟨?_, by decide +kernel, ?_, ?_⟩
  · have failed : (dashboard.page? 0).any (fun page => page.status.isFailed) := by decide +kernel
    obtain ⟨page, found, isFailed⟩ := (Option.any_eq_true ..).mp failed
    refine ⟨page, found, ?_⟩
    cases status : page.status with
    | failed message => exact (pages 0 page found).1 message status
    | _ => simp [status, PageStatus.isFailed] at isFailed
  · have taken : (dashboard.snapshotBetween (dashboard.run retrying) 0).any
        (fun snapshot => snapshot.loading = false) := by decide +kernel
    obtain ⟨snapshot, found, settled⟩ := (Option.any_eq_true ..).mp taken
    have quiet := snapshots retrying 0 snapshot found (of_decide_eq_true settled)
    exact ⟨snapshot, found, of_decide_eq_true settled, quiet⟩
  · have ready : ((mounted.run (failing ++ retrying ++ ending)).page? 0).any
        (fun page => page.status = .ready none) := by decide +kernel
    obtain ⟨page, found, isReady⟩ := (Option.any_eq_true ..).mp ready
    obtain ⟨settled, listing, _, keys⟩ :=
      (pagesAfter 0 page found).2.1 none (of_decide_eq_true isReady)
    exact ⟨page, found, settled, listing, keys⟩

end Dashboard

end CrawlBoard
