import CrawlBoard.Dashboard.Navigation
import CrawlBoard.SitemapIndex
/-!
The steps of the work in the background. Each step looks at whether the dashboard has been
unmounted before it changes anything that is shown.
-/

namespace CrawlBoard

inductive StoreCall where
  | count (query : ListQuery)
  | listing (serial : Nat) (query : ListQuery)
  | fetch (serial position : Nat) (key : String)
  deriving DecidableEq, Repr

inductive Event where
  | command (command : Command)
  | askListing (serial : Nat)
  | takeListing (serial : Nat) (answer : Except StoreError ObjectPage)
  | place (serial : Nat)
  | takeFetch (serial position : Nat) (answer : Except StoreError StoredObject)
  | publish (serial : Nat)
  | askCount
  | takeCount (answer : Except StoreError ObjectPage)
  | publishCount
  | takeProbe (answer : Except SitemapIndex.ProbeError (Option Nat))

namespace Dashboard

def failureText (dashboard : Dashboard) (error : StoreError) : String :=
  "Error loading report from " ++ dashboard.location ++ ": " ++ error.message

def askListing (dashboard : Dashboard) (load : Load) : Dashboard × List StoreCall :=
  match load.stage with
  | .asking => (dashboard.setStage load.serial .listing,
      [.listing load.serial (dashboard.pager.query load.token?)])
  | _ => (dashboard, [])

def takeListing (dashboard : Dashboard) (load : Load) (answer : Except StoreError ObjectPage) :
    Dashboard :=
  match load.stage, answer with
  | .listing, .ok page => dashboard.setStage load.serial (.listed (.ofListing page))
  | .listing, .error error => dashboard.setStage load.serial (.refused error)
  | _, _ => dashboard

def fetchCalls (serial : Nat) (listed : ListedPage) : List StoreCall :=
  listed.keys.zipIdx.map fun (key, position) => .fetch serial position key

def place (dashboard : Dashboard) (load : Load) : Dashboard × List StoreCall :=
  match load.stage with
  | .listed listed =>
      if dashboard.unmounted then (dashboard.dropLoad load.serial, [])
      else
        let started := PageLoad.start listed
        ((dashboard.updatePage load fun page => { page with items := started.placeholders }).setStage
          load.serial (.fetching started), fetchCalls load.serial listed)
  | _ => (dashboard, [])

def takeFetch (dashboard : Dashboard) (load : Load) (position : Nat)
    (answer : Except StoreError StoredObject) : Dashboard :=
  match load.stage with
  | .fetching fetching =>
      let take := fetching.take dashboard.unmounted position answer
      (dashboard.updatePage load fun page => { page with items := (take page.items).2 }).setStage
        load.serial (.fetching (take .empty).1)
  | _ => dashboard

def verdict? (dashboard : Dashboard) (load : Load) : Option PageStatus :=
  match load.stage with
  | .refused error => some (.failed (dashboard.failureText error))
  | .fetching fetching => if fetching.finished then some (.ready fetching.listed.next?) else none
  | _ => none

def publish (dashboard : Dashboard) (load : Load) : Dashboard :=
  match dashboard.verdict? load with
  | none => dashboard
  | some status =>
      let finished := dashboard.dropLoad load.serial
      if dashboard.unmounted then finished
      else finished.updatePage load fun page => { page with status }

def askCount (dashboard : Dashboard) : Dashboard × List StoreCall :=
  match dashboard.count? with
  | some (.asking token? counted) =>
      let pass := CountPass.ask dashboard.unmounted (.asking token? counted)
      ({ dashboard with count? := some pass },
        if dashboard.unmounted then [] else [.count (dashboard.pager.countQuery token?)])
  | _ => (dashboard, [])

def takeCount (dashboard : Dashboard) (answer : Except StoreError ObjectPage) : Dashboard :=
  { dashboard with count? := dashboard.count?.map (CountPass.take answer) }

/-- A pass that was cancelled leaves the total open. -/
def publishCount (dashboard : Dashboard) : Dashboard :=
  match dashboard.count? with
  | some (.ended result) =>
      let settled := { dashboard with count? := none }
      if dashboard.unmounted then settled
      else match result with
        | .ok (some reports) => { settled with total := .known reports }
        | .ok none => settled
        | .error _ => { settled with total := .unavailable }
  | _ => dashboard

def takeProbe (dashboard : Dashboard) (answer : Except SitemapIndex.ProbeError (Option Nat)) :
    Dashboard :=
  if !dashboard.probing then dashboard
  else
    let settled := { dashboard with probing := false }
    match answer with
    | .ok (some sitemaps) =>
        if dashboard.unmounted then settled else { settled with sitemaps? := some sitemaps }
    | _ => settled

/-- One step, and the calls it makes. Events that do not fit the state change nothing. -/
def step (dashboard : Dashboard) (event : Event) : Dashboard × List StoreCall :=
  let withLoad (serial : Nat) (act : Load → Dashboard × List StoreCall) :=
    ((dashboard.load? serial).map act).getD (dashboard, [])
  match event with
  | .command command => (((dashboard.perform command).toOption).getD dashboard, [])
  | .askListing serial => withLoad serial dashboard.askListing
  | .takeListing serial answer => withLoad serial fun load => (dashboard.takeListing load answer, [])
  | .place serial => withLoad serial dashboard.place
  | .takeFetch serial position answer =>
      withLoad serial fun load => (dashboard.takeFetch load position answer, [])
  | .publish serial => withLoad serial fun load => (dashboard.publish load, [])
  | .askCount => dashboard.askCount
  | .takeCount answer => (dashboard.takeCount answer, [])
  | .publishCount => (dashboard.publishCount, [])
  | .takeProbe answer => (dashboard.takeProbe answer, [])

def run (dashboard : Dashboard) (events : List Event) : Dashboard :=
  events.foldl (fun dashboard event => (dashboard.step event).1) dashboard

end Dashboard

end CrawlBoard
