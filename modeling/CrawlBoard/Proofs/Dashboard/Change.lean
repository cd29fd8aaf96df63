import CrawlBoard.Proofs.Dashboard.Pages
/-!
What one step can do to the pages and loads of a dashboard. Invariants of runs are shown over
these changes, never over the steps themselves.
-/

namespace CrawlBoard

def LoadStage.ofAnswer : Except StoreError ObjectPage → LoadStage
  | .ok page => .listed (.ofListing page)
  | .error error => .refused error

namespace Dashboard

def placed (dashboard : Dashboard) (load : Load) (listed : ListedPage) : Dashboard :=
  (dashboard.updatePage load fun page =>
    { page with items := (PageLoad.start listed).placeholders }).setStage load.serial
      (.fetching (.start listed))

def fetched (dashboard : Dashboard) (load : Load) (fetching : PageLoad) (position : Nat)
    (answer : Except StoreError StoredObject) : Dashboard :=
  let take := fetching.take dashboard.unmounted position answer
  (dashboard.updatePage load fun page => { page with items := (take page.items).2 }).setStage
    load.serial (.fetching (take .empty).1)

def published (dashboard : Dashboard) (load : Load) (status : PageStatus) : Dashboard :=
  (dashboard.dropLoad load.serial).updatePage load fun page => { page with status }

def settledTotal (dashboard : Dashboard) (result : Except StoreError (Option Nat)) : TotalCount :=
  if dashboard.unmounted then dashboard.total
  else match result with
    | .ok (some reports) => .known reports
    | .ok none => dashboard.total
    | .error _ => .unavailable

def settledSitemaps (dashboard : Dashboard)
    (answer : Except SitemapIndex.ProbeError (Option Nat)) : Option Nat :=
  match answer with
  | .ok (some sitemaps) => if dashboard.unmounted then dashboard.sitemaps? else some sitemaps
  | _ => dashboard.sitemaps?

theorem page?_placed (dashboard : Dashboard) (load : Load) (listed : ListedPage) (index : Nat) :
    (dashboard.placed load listed).page? index = (dashboard.updatePage load fun page =>
      { page with items := (PageLoad.start listed).placeholders }).page? index := rfl

theorem page?_fetched (dashboard : Dashboard) (load : Load) (fetching : PageLoad) (position : Nat)
    (answer : Except StoreError StoredObject) (index : Nat) :
    (dashboard.fetched load fetching position answer).page? index =
      (dashboard.updatePage load fun page => { page with
        items := (fetching.take dashboard.unmounted position answer page.items).2 }).page? index :=
  rfl

theorem page?_published (dashboard : Dashboard) (load : Load) (status : PageStatus) (index : Nat) :
    (dashboard.published load status).page? index =
      (dashboard.updatePage load fun page => { page with status }).page? index := rfl

/-- `Change before event after`: the event may turn the one dashboard into the other. -/
inductive Change (before : Dashboard) : Event → Dashboard → Prop where
  | idle (event : Event) : Change before event before
  | askCount (pass : CountPass) (counting : before.count? = some pass) :
      Change before .askCount { before with count? := some (pass.ask before.unmounted) }
  | takeCount (answer : Except StoreError ObjectPage) :
      Change before (.takeCount answer) (before.takeCount answer)
  | settleCount (result : Except StoreError (Option Nat))
      (ended : before.count? = some (.ended result)) :
      Change before .publishCount
        { before with count? := none, total := before.settledTotal result }
  | settleProbe (answer : Except SitemapIndex.ProbeError (Option Nat)) :
      Change before (.takeProbe answer)
        { before with probing := false, sitemaps? := before.settledSitemaps answer }
  | unmount : Change before (.command .unmount) before.unmount
  | turn (command : Command) (page : Nat) (mounted : before.unmounted = false)
      (opened : (before.page? page).isSome) :
      Change before (.command command) { before with current := page }
  | start (command : Command) (page : Nat) (token? : Option String)
      (mounted : before.unmounted = false) (reachable : before.entrance? page = some token?)
      (vacant : ∀ present, before.page? page = some present → present.status.isFailed) :
      Change before (.command command) (before.startLoad page token?)
  | ask (load : Load) (found : before.load? load.serial = some load)
      (asking : load.stage = .asking) :
      Change before (.askListing load.serial) (before.setStage load.serial .listing)
  | list (load : Load) (answer : Except StoreError ObjectPage)
      (found : before.load? load.serial = some load) (listing : load.stage = .listing) :
      Change before (.takeListing load.serial answer)
        (before.setStage load.serial (.ofAnswer answer))
  | place (load : Load) (listed : ListedPage) (found : before.load? load.serial = some load)
      (stage : load.stage = .listed listed) (mounted : before.unmounted = false) :
      Change before (.place load.serial) (before.placed load listed)
  | fetch (load : Load) (fetching : PageLoad) (position : Nat)
      (answer : Except StoreError StoredObject) (found : before.load? load.serial = some load)
      (stage : load.stage = .fetching fetching) :
      Change before (.takeFetch load.serial position answer)
        (before.fetched load fetching position answer)
  | publish (load : Load) (status : PageStatus) (found : before.load? load.serial = some load)
      (verdict : before.verdict? load = some status) (mounted : before.unmounted = false) :
      Change before (.publish load.serial) (before.published load status)
  | abandon (event : Event) (load : Load) (found : before.load? load.serial = some load)
      (unmounted : before.unmounted = true) :
      Change before event (before.dropLoad load.serial)

theorem publishCount_of_ended (dashboard : Dashboard) (result : Except StoreError (Option Nat))
    (ended : dashboard.count? = some (.ended result)) :
    dashboard.publishCount =
      { dashboard with count? := none, total := dashboard.settledTotal result } := by
  simp only [publishCount, ended, settledTotal]
  cases dashboard.unmounted with
  | true => rfl
  | false =>
      cases result with
      | error error => rfl
      | ok counted => cases counted <;> rfl

theorem takeProbe_of_probing (dashboard : Dashboard)
    (answer : Except SitemapIndex.ProbeError (Option Nat)) (probing : dashboard.probing = true) :
    dashboard.takeProbe answer =
      { dashboard with probing := false, sitemaps? := dashboard.settledSitemaps answer } := by
  simp only [takeProbe, probing, settledSitemaps]
  cases answer with
  | error error => rfl
  | ok sitemaps? =>
      cases sitemaps? with
      | none => rfl
      | some sitemaps => cases unmounted : dashboard.unmounted <;> simp

theorem navigate_change (dashboard after : Dashboard) (command : Command) (page : Nat)
    (moved : dashboard.navigate page = .ok after) : Change dashboard (.command command) after := by
  unfold navigate at moved
  split at moved
  · cases moved
  · rename_i mounted
    have isMounted : dashboard.unmounted = false := by simpa using mounted
    split at moved
    · rename_i opened
      cases moved
      refine .turn command page isMounted ?_
      cases lookup : dashboard.page? page with
      | none => simp [lookup] at opened
      | some present => rfl
    · rename_i notOpen
      split at moved
      · rename_i token? reachable
        cases moved
        refine .start command page token? isMounted reachable ?_
        intro present found
        simpa [found] using notOpen
      · cases moved

theorem visit_change (dashboard after : Dashboard) (command : Command) (page : Nat)
    (moved : dashboard.visit page = .ok after) : Change dashboard (.command command) after := by
  unfold visit at moved
  split at moved
  · rename_i opened
    simp only [Bool.and_eq_true, Bool.not_eq_true'] at opened
    cases moved
    exact .turn command page opened.2 opened.1
  · exact navigate_change dashboard after command page moved

theorem perform_change (dashboard after : Dashboard) (command : Command)
    (moved : dashboard.perform command = .ok after) :
    Change dashboard (.command command) after := by
  cases command with
  | navigate page => exact navigate_change dashboard after _ page moved
  | visit page => exact visit_change dashboard after _ page moved
  | next => exact navigate_change dashboard after _ _ moved
  | prev =>
      simp only [perform, prev] at moved
      split at moved
      · cases moved
      · exact navigate_change dashboard after _ _ moved
  | unmount =>
      cases moved
      exact .unmount

theorem publish_change (dashboard : Dashboard) (load : Load)
    (found : dashboard.load? load.serial = some load) :
    Change dashboard (.publish load.serial) (dashboard.publish load) := by
  unfold publish
  split
  · exact .idle _
  · rename_i status verdict
    by_cases unmounted : dashboard.unmounted = true
    · simpa [unmounted] using Change.abandon _ load found unmounted
    · have mounted : dashboard.unmounted = false := by simpa using unmounted
      simpa [mounted, published] using Change.publish load status found verdict mounted

theorem place_change (dashboard : Dashboard) (load : Load)
    (found : dashboard.load? load.serial = some load) :
    Change dashboard (.place load.serial) (dashboard.place load).1 := by
  unfold place
  split
  · rename_i listed stage
    by_cases unmounted : dashboard.unmounted = true
    · simpa [unmounted] using Change.abandon _ load found unmounted
    · have mounted : dashboard.unmounted = false := by simpa using unmounted
      simpa [mounted, placed] using Change.place load listed found stage mounted
  · exact .idle _

theorem step_change (dashboard : Dashboard) (event : Event) :
    Change dashboard event (dashboard.step event).1 := by
  -- An event about a load that is not there changes nothing.
  have withLoad (serial : Nat) (event : Event) (act : Load → Dashboard × List StoreCall)
      (acts : ∀ load, dashboard.load? serial = some load → load.serial = serial →
        Change dashboard event (act load).1) :
      Change dashboard event (((dashboard.load? serial).map act).getD (dashboard, [])).1 := by
    cases found : dashboard.load? serial with
    | none => exact .idle event
    | some load =>
        exact acts load found (load_of_load? dashboard serial load found).2
  cases event with
  | command command =>
      simp only [step]
      cases moved : dashboard.perform command with
      | error error => exact .idle _
      | ok after => exact perform_change dashboard after command moved
  | askListing serial =>
      refine withLoad serial _ dashboard.askListing ?_
      rintro load found rfl
      unfold askListing
      split
      · rename_i asking
        exact .ask load found asking
      · exact .idle _
  | takeListing serial answer =>
      refine withLoad serial _ (fun load => (dashboard.takeListing load answer, [])) ?_
      rintro load found rfl
      have change : load.stage = .listing → Change dashboard _ _ := .list load answer found
      cases stage : load.stage with
      | listing =>
          cases answer <;> simpa [takeListing, stage, LoadStage.ofAnswer] using change stage
      | _ => simpa [takeListing, stage] using Change.idle _
  | place serial =>
      refine withLoad serial _ dashboard.place ?_
      rintro load found rfl
      exact place_change dashboard load found
  | takeFetch serial position answer =>
      refine withLoad serial _ (fun load => (dashboard.takeFetch load position answer, [])) ?_
      rintro load found rfl
      cases stage : load.stage with
      | fetching fetching =>
          simpa [takeFetch, stage, fetched] using
            Change.fetch load fetching position answer found stage
      | _ => simpa [takeFetch, stage] using Change.idle _
  | publish serial =>
      refine withLoad serial _ (fun load => (dashboard.publish load, [])) ?_
      rintro load found rfl
      exact publish_change dashboard load found
  | askCount =>
      simp only [step, askCount]
      split
      · rename_i token? counted counting
        exact .askCount _ counting
      · exact .idle _
  | takeCount answer => exact .takeCount answer
  | publishCount =>
      cases ended : dashboard.count? with
      | none => simpa [step, publishCount, ended] using Change.idle _
      | some pass =>
          cases pass with
          | ended result =>
              simp only [step, publishCount_of_ended dashboard result ended]
              exact .settleCount result ended
          | _ => simpa [step, publishCount, ended] using Change.idle _
  | takeProbe answer =>
      cases probing : dashboard.probing with
      | false => simpa [step, takeProbe, probing] using Change.idle _
      | true =>
          simp only [step, takeProbe_of_probing dashboard answer probing]
          exact .settleProbe answer

theorem mounted_before {before after : Dashboard} {event : Event}
    (change : Change before event after) (mounted : after.unmounted = false) :
    before.unmounted = false := by
  cases change with
  | unmount => cases mounted
  | _ => exact mounted

theorem Change.still {before after : Dashboard} {event : Event}
    (change : Change before event after) (noCommand : ∀ command, event ≠ .command command) :
    after.current = before.current ∧ after.unmounted = before.unmounted := by
  cases change with
  | unmount => exact absurd rfl (noCommand _)
  | turn command => exact absurd rfl (noCommand command)
  | start command => exact absurd rfl (noCommand command)
  | _ => exact ⟨rfl, rfl⟩

theorem pager_of_change {before after : Dashboard} {event : Event}
    (change : Change before event after) : after.pager = before.pager := by
  cases change <;> rfl

theorem location_of_change {before after : Dashboard} {event : Event}
    (change : Change before event after) : after.location = before.location := by
  cases change <;> rfl

theorem failureText_of_change {before after : Dashboard} {event : Event}
    (change : Change before event after) (error : StoreError) :
    after.failureText error = before.failureText error := by
  unfold failureText
  rw [location_of_change change]

theorem run_append (dashboard : Dashboard) (earlier later : List Event) :
    dashboard.run (earlier ++ later) = (dashboard.run earlier).run later :=
  List.foldl_append

/-- What every change keeps, every run keeps. -/
theorem run_keeps (invariant : Dashboard → Prop)
    (keeps : ∀ before event after, invariant before → Change before event after → invariant after)
    (dashboard : Dashboard) (initial : invariant dashboard) (events : List Event) :
    invariant (dashboard.run events) := by
  induction events generalizing dashboard with
  | nil => exact initial
  | cons event events ih =>
      exact ih _ (keeps dashboard event _ initial (step_change dashboard event))

theorem pager_run (dashboard : Dashboard) (events : List Event) :
    (dashboard.run events).pager = dashboard.pager :=
  run_keeps (fun later => later.pager = dashboard.pager)
    (fun _ _ _ same change => (pager_of_change change).trans same) dashboard rfl events

end Dashboard

end CrawlBoard
