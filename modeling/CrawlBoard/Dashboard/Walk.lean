import CrawlBoard.Dashboard.Session

namespace CrawlBoard

inductive WalkError where
  | page (message : String)
  | navigation (error : NavigationError)
  | endless
  deriving DecidableEq, Repr

def WalkError.message : WalkError → String
  | .page message => message
  | .navigation error => error.message
  | .endless => "the pages do not end"

namespace Session

variable {σ : Type}

/-- Walks for at most `fuel` pages, each settled within so many steps; gives the number of pages
that were loaded, and the session where the walk has ended. -/
def walk (last? : Option Nat) (steps : Nat) : Nat → Session σ → Except WalkError Nat × Session σ
  | 0, session => (.error .endless, session)
  | fuel + 1, session =>
      let session := session.settle steps steps
      let page := session.dashboard.current
      match (session.dashboard.page? page).elim .loading OpenPage.status with
      | .loading => (.error .endless, session)
      | .failed message => (.error (.page message), session)
      | .ready next? =>
          if last? = some page ∨ next?.isNone then (.ok (page + 1), session)
          else match session.perform .next with
            | .error error => (.error (.navigation error), session)
            | .ok session => walk last? steps fuel session

/-- Waits for the total for at most so many steps. Nobody waits on an unmounted dashboard. -/
def awaitTotal (steps : Nat) (session : Session σ) : Except WalkError (Session σ) :=
  let settled (dashboard : Dashboard) : Bool := dashboard.total ≠ .counting || dashboard.unmounted
  if settled session.dashboard then .ok session
  else
    let session := session.runTask steps .count
    if settled session.dashboard then .ok session else .error .endless

end Session

end CrawlBoard
