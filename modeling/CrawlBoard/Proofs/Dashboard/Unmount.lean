import CrawlBoard.Proofs.Dashboard.Change

namespace CrawlBoard

@[simp] theorem PageLoad.items_take_cancelled (load : PageLoad) (position : Nat)
    (answer : Except StoreError StoredObject) (items : PageItems) :
    (load.take true position answer items).2 = items := by
  unfold PageLoad.take
  split <;> rfl

namespace Dashboard

/-- What is shown of one dashboard is shown of the other, and both are unmounted. -/
structure Frozen (before after : Dashboard) : Prop where
  pages : after.pages = before.pages
  current : after.current = before.current
  total : after.total = before.total
  sitemaps : after.sitemaps? = before.sitemaps?
  unmounted : after.unmounted = true

theorem Change.frozen {before after : Dashboard} {event : Event}
    (change : Change before event after) (unmounted : before.unmounted = true) :
    Frozen before after := by
  have notMounted (mounted : before.unmounted = false) : False := by
    rw [unmounted] at mounted
    cases mounted
  cases change with
  | idle event => exact ⟨rfl, rfl, rfl, rfl, unmounted⟩
  | askCount pass counting => exact ⟨rfl, rfl, rfl, rfl, unmounted⟩
  | takeCount answer => exact ⟨rfl, rfl, rfl, rfl, unmounted⟩
  | settleCount result ended =>
      have total : before.settledTotal result = before.total := by simp [settledTotal, unmounted]
      exact ⟨rfl, rfl, total, rfl, unmounted⟩
  | settleProbe answer =>
      have sitemaps : before.settledSitemaps answer = before.sitemaps? := by
        unfold settledSitemaps
        split <;> simp [unmounted]
      exact ⟨rfl, rfl, rfl, sitemaps, unmounted⟩
  | unmount => exact ⟨rfl, rfl, rfl, rfl, rfl⟩
  | turn command page mounted opened => exact (notMounted mounted).elim
  | start command page token? mounted reachable vacant => exact (notMounted mounted).elim
  | ask load found asking => exact ⟨rfl, rfl, rfl, rfl, unmounted⟩
  | list load answer found listing => exact ⟨rfl, rfl, rfl, rfl, unmounted⟩
  | place load listed found stage mounted => exact (notMounted mounted).elim
  | fetch load fetching position answer found stage =>
      -- The answer is taken off the list of those awaited, but not written.
      have pages : (before.fetched load fetching position answer).pages = before.pages := by
        change (before.updatePage load fun page => { page with
          items := (fetching.take before.unmounted position answer page.items).2 }).pages = _
        rw [unmounted]
        apply pages_updatePage_of_fixed
        intro page
        rw [PageLoad.items_take_cancelled]
      exact ⟨pages, rfl, rfl, rfl, unmounted⟩
  | publish load status found verdict mounted => exact (notMounted mounted).elim
  | abandon event load found _ => exact ⟨rfl, rfl, rfl, rfl, unmounted⟩

theorem run_frozen (dashboard : Dashboard) (unmounted : dashboard.unmounted = true)
    (events : List Event) : Frozen dashboard (dashboard.run events) := by
  refine run_keeps (Frozen dashboard) ?_ dashboard ⟨rfl, rfl, rfl, rfl, unmounted⟩ events
  intro before event after kept change
  have step := change.frozen kept.unmounted
  exact {
    pages := step.pages.trans kept.pages
    current := step.current.trans kept.current
    total := step.total.trans kept.total
    sitemaps := step.sitemaps.trans kept.sitemaps
    unmounted := step.unmounted }

theorem navigate_unmounted (dashboard : Dashboard) (unmounted : dashboard.unmounted = true)
    (page : Nat) : dashboard.navigate page = .error .unmounted := by
  simp [navigate, unmounted]

/-- From the moment a dashboard is unmounted, in whatever state its work is then, no further step
changes what is shown of it, and no page can be gone to. -/
theorem unmounted_run_shows_nothing_new (dashboard : Dashboard)
    (unmounted : dashboard.unmounted = true) (events : List Event) :
    let later := dashboard.run events
    (later.pages = dashboard.pages ∧ later.current = dashboard.current ∧
      later.total = dashboard.total ∧ later.sitemaps? = dashboard.sitemaps?) ∧
    (∀ page, later.perform (.navigate page) = .error .unmounted) ∧
    (∀ page, later.perform (.visit page) = .error .unmounted) ∧
    later.perform .next = .error .unmounted ∧
    later.perform .prev = .error (if later.current = 0 then .atFirstPage else .unmounted) := by
  intro later
  have frozen : Frozen dashboard later := run_frozen dashboard unmounted events
  have stuck := navigate_unmounted later frozen.unmounted
  refine ⟨⟨frozen.pages, frozen.current, frozen.total, frozen.sitemaps⟩, stuck, ?_, stuck _, ?_⟩
  · intro page
    simp [perform, visit, frozen.unmounted, stuck]
  · cases first : later.current with
    | zero => simp [perform, prev, first]
    | succ page => simp [perform, prev, first, stuck]

/-- Taken down between the placeholders of a page and the answer to its fetch. -/
theorem unmounted_during_fetch_shows_nothing_new :
    let dashboard := (mount (.ofPrefix "") "store" true).run
      [.askListing 0, .takeListing 0 (.ok ⟨[⟨"a.json", none⟩], some "1"⟩), .place 0,
        .command .unmount]
    dashboard.unmounted = true ∧
      (dashboard.run [.takeFetch 0 0 (.error (.notFound "a.json")), .publish 0,
        .takeProbe (.ok (some 3))]).pages = dashboard.pages :=
  ⟨rfl, (unmounted_run_shows_nothing_new _ rfl _).1.1⟩

end Dashboard

end CrawlBoard
