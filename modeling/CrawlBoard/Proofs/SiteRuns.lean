import CrawlBoard.Proofs.Dashboard.FixedStore
import CrawlBoard.Proofs.Dashboard.Moves
import CrawlBoard.Proofs.Renderings
/-!
A site at a store: requests and the work in the background take turns in any order. A request only
turns the dashboard to a page or keeps a rendering, so that the dashboard of a site is like any other
one, and its cache holds nothing but renderings.
-/

namespace CrawlBoard.Site

variable {site : Site}

inductive Act where
  | request (request : SiteRequest)
  | work (event : Event)

/-- Answers that are awaited are those of the store. -/
def act (store : FixedStore) (site : Site) : Act → Site
  | .request request => (site.respond request).2
  | .work event => { site with dashboard := site.dashboard.runAt store [event] }

def runAt (store : FixedStore) (site : Site) (acts : List Act) : Site := acts.foldl (act store) site

/-! ## Requests -/

/-- `Leads before after`: answering a request may turn the one site into the other. -/
inductive Leads (before : Site) : Site → Prop where
  | same : Leads before before
  | moved (command : Command) (dashboard : Dashboard)
      (performed : before.dashboard.perform command = .ok dashboard) :
      Leads before { before with dashboard }
  | rendered (format : ExportFormat) :
      Leads before
        { before with cache := (before.cache.fetch format before.dashboard.reports).2 }

theorem leads_of_openPage {page : Nat} {reload : Bool} {snapshot : Snapshot} {opened : Site}
    (shown : site.openPage page reload = .ok (snapshot, opened)) : site.Leads opened := by
  rw [Dashboard.openPage_eq] at shown
  cases performed : site.dashboard.perform (Dashboard.opening page reload) with
  | error error =>
      rw [performed] at shown
      cases shown
  | ok dashboard =>
      rw [performed] at shown
      simp only [Except.bind] at shown
      split at shown
      · cases shown
        exact .moved _ dashboard performed
      · cases shown

theorem leads_board (site : Site) (query : String) : site.Leads (site.board query).2 := by
  unfold board
  split
  · exact .same
  · dsimp only
    split
    · exact .same
    · rename_i shown
      exact leads_of_openPage shown

theorem leads_page (site : Site) (segment : String) : site.Leads (site.page segment).2 := by
  unfold page
  split
  · exact .same
  · split
    · exact .same
    · rename_i shown
      exact leads_of_openPage shown

theorem leads_get (site : Site) (route : Route) (query : String) :
    site.Leads (site.get route query).2 := by
  cases route with
  | board => exact site.leads_board query
  | page segment => exact site.leads_page segment
  | exported format => exact .rendered format
  | _ => exact .same

theorem leads_respond (site : Site) (request : SiteRequest) :
    site.Leads (site.respond request).2 := by
  unfold respond
  dsimp only
  split
  · exact site.leads_get ..
  · exact site.leads_get ..
  all_goals exact .same

def exportPath : ExportFormat → String
  | .json => "/export/report.json"
  | .linkedData => "/export/report.jsonld"

theorem respond_export (site : Site) (format : ExportFormat) :
    site.respond ⟨"GET", exportPath format⟩ = site.exported format := by
  cases format <;> rfl

/-! ## Runs -/

/-- The pages show what the store says, and the cache keeps renderings. -/
structure Faithful (store : FixedStore) (pager : Pager) (site : Site) : Prop where
  accounted : (store.replies pager).Accounted site.dashboard
  samePager : site.dashboard.pager = pager
  sound : site.cache.Sound

namespace Faithful

variable {store : FixedStore} {pager : Pager}

theorem change (faithful : site.Faithful store pager) {event : Event} {dashboard : Dashboard}
    (change : Dashboard.Change site.dashboard event dashboard)
    (served : site.dashboard.Served store event) :
    Faithful store pager { site with dashboard } where
  accounted := Dashboard.accounted_of_served faithful.accounted faithful.samePager change served
  samePager := (Dashboard.pager_of_change change).trans faithful.samePager
  sound := faithful.sound

theorem leads (faithful : site.Faithful store pager) {after : Site} (leads : site.Leads after) :
    after.Faithful store pager := by
  cases leads with
  | same => exact faithful
  | moved command dashboard performed =>
      exact faithful.change (Dashboard.perform_change _ _ command performed) nofun
  | rendered format =>
      exact ⟨faithful.accounted, faithful.samePager, (faithful.sound.fetch format _).2⟩

theorem act (faithful : site.Faithful store pager) (act : Act) :
    (site.act store act).Faithful store pager := by
  cases act with
  | request request => exact faithful.leads (site.leads_respond request)
  | work event =>
      exact faithful.change (Dashboard.step_change ..) (site.dashboard.served_answered event)

theorem runAt (faithful : site.Faithful store pager) (acts : List Act) :
    (site.runAt store acts).Faithful store pager := by
  induction acts generalizing site with
  | nil => exact faithful
  | cons act acts ih => exact ih (faithful.act act)

theorem respond_export (faithful : site.Faithful store pager) (format : ExportFormat) :
    (site.respond ⟨"GET", exportPath format⟩).1.status = 200 ∧
      (site.respond ⟨"GET", exportPath format⟩).1.body = format.render site.dashboard.reports := by
  rw [Site.respond_export]
  exact ⟨rfl, (faithful.sound.fetch format _).1⟩

end Faithful

end CrawlBoard.Site
