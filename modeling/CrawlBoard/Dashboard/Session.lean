import CrawlBoard.Dashboard.Snapshot
import CrawlBoard.Dashboard.Work
/-!
A dashboard at work on a store. The work of the count and of every load is a task; tasks run one
at a time, each until it has to wait at a gate or is done. Permits of a gate go to those that
have waited longest.
-/

namespace CrawlBoard

inductive Task where
  | count
  | load (serial : Nat)
  deriving DecidableEq, Repr

def StoreCall.task : StoreCall → Task
  | .count _ => .count
  | .listing serial _ => .load serial
  | .fetch serial _ _ => .load serial

def StoreCall.position : StoreCall → Nat
  | .fetch _ position _ => position
  | _ => 0

structure Ticket (σ : Type) where
  task : Task
  position : Nat
  gate? : Option String
  unmounts : Bool
  answer : σ → Event

structure Session (σ : Type) where
  kind : StoreKind σ
  store : σ
  dashboard : Dashboard
  ready : List Task
  waiting : List (Ticket σ) := []
  granted : List (Ticket σ) := []
  permits : String → Nat := fun _ => 0

namespace Session

variable {σ : Type}

def mount (kind : StoreKind σ) (store : σ) (pager : Pager) (probing : Bool) : Session σ where
  kind
  store
  dashboard := .mount pager (kind.location store) probing
  ready := [.count, .load 0]

def place (session : Session σ) (call : StoreCall) : Ticket σ × σ :=
  let ticket {α : Type} (placed : Call σ α × σ) (event : Except StoreError α → Event) :
      Ticket σ × σ :=
    (⟨call.task, call.position, placed.1.gate?, placed.1.unmounts,
      fun now => event (placed.1.answer now)⟩, placed.2)
  match call with
  | .count query => ticket (session.kind.list session.store query) .takeCount
  | .listing serial query => ticket (session.kind.list session.store query) (.takeListing serial)
  | .fetch serial position key =>
      ticket (session.kind.fetch session.store key) (.takeFetch serial position)

def finish (session : Session σ) (ticket : Ticket σ) : Session σ :=
  let dashboard := if ticket.unmounts then session.dashboard.unmount else session.dashboard
  { session with dashboard := (dashboard.step (ticket.answer session.store)).1 }

/-- Makes a call; it goes on at once unless it has to wait for a permit. -/
def issue (session : Session σ) (call : StoreCall) : Session σ :=
  let (ticket, store) := session.place call
  let session := { session with store }
  match ticket.gate? with
  | none => session.finish ticket
  | some gate =>
      match session.permits gate with
      | 0 => { session with waiting := session.waiting ++ [ticket] }
      | spare + 1 =>
          { session with permits := fun name => if name = gate then spare else session.permits name
            }.finish ticket

/-- The step a task takes next, unless it waits for answers or is done. -/
def due? (dashboard : Dashboard) : Task → Option Event
  | .count =>
      match dashboard.count? with
      | some (.asking ..) => some .askCount
      | some (.ended _) => some .publishCount
      | _ => none
  | .load serial =>
      match dashboard.load? serial with
      | none => none
      | some load =>
          match load.stage with
          | .asking => some (.askListing serial)
          | .listing => none
          | .listed _ => some (.place serial)
          | .refused _ => some (.publish serial)
          | .fetching fetching => if fetching.finished then some (.publish serial) else none

def advance (task : Task) : Nat → Session σ → Session σ
  | 0, session => session
  | fuel + 1, session =>
      match due? session.dashboard task with
      | none => session
      | some event =>
          let (dashboard, calls) := session.dashboard.step event
          advance task fuel (calls.foldl issue { session with dashboard })

def isOf (task : Task) (ticket : Ticket σ) : Bool := ticket.task = task

/-- Runs a task: first the calls that have been given permits, then the steps due. -/
def runTask (fuel : Nat) (task : Task) (session : Session σ) : Session σ :=
  let granted := (session.granted.filter (isOf task)).mergeSort fun x y => x.position ≤ y.position
  let others := session.granted.filter fun ticket => !isOf task ticket
  advance task fuel (granted.foldl finish { session with granted := others })

def settle (steps : Nat) : Nat → Session σ → Session σ
  | 0, session => session
  | fuel + 1, session =>
      match session.ready with
      | [] => session
      | task :: ready => settle steps fuel (runTask steps task { session with ready })

def wake (ready : List Task) (tickets : List (Ticket σ)) : List Task :=
  tickets.foldl (fun ready ticket =>
    if ready.contains ticket.task then ready else ready ++ [ticket.task]) ready

/-- Gives permits of a gate; those nobody waits for are kept. -/
def release (gate : String) (count : Nat) (session : Session σ) : Session σ :=
  let atGate (ticket : Ticket σ) : Bool := ticket.gate? == some gate
  let taken := (session.waiting.filter atGate).take count
  let left := (session.waiting.filter atGate).drop count
  { session with
    waiting := session.waiting.filter (fun ticket => !atGate ticket) ++ left
    granted := session.granted ++ taken
    ready := wake session.ready taken
    permits := fun name =>
      session.permits name + if name = gate then count - taken.length else 0 }

/-- Goes on with a dashboard that has been moved; the loads this started become tasks. -/
def resume (session : Session σ) (dashboard : Dashboard) : Session σ :=
  let started := dashboard.loads.filter fun load => session.dashboard.serial ≤ load.serial
  { session with
    dashboard
    ready := session.ready ++ started.map fun load => .load load.serial }

def perform (session : Session σ) (command : Command) : Except NavigationError (Session σ) :=
  (session.dashboard.perform command).map session.resume

def takeProbe (session : Session σ)
    (answer : Except SitemapIndex.ProbeError (Option Nat)) : Session σ :=
  { session with dashboard := (session.dashboard.step (.takeProbe answer)).1 }

end Session

end CrawlBoard
