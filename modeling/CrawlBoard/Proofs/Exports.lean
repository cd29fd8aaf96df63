import CrawlBoard.CommandLine.Program
import CrawlBoard.Proofs.Dashboard.Count
import CrawlBoard.Proofs.Dashboard.SessionWalk
import CrawlBoard.Proofs.SiteRuns
/-!
Exports of a store that stays the same. Whoever asks for them, and in whatever order the answers of
the store have come, all pages together are one document: a rendering of the reports in the order
of the listings.
-/

namespace CrawlBoard

/-- The first so many pages are ready. -/
def Dashboard.AllReady (dashboard : Dashboard) (count : Nat) : Prop :=
  ∀ index < count, ∃ page next?, dashboard.page? index = some page ∧ page.status = .ready next?

section Documents

variable {store : FixedStore} {pager : Pager} {pages : List ObjectPage}

theorem Replies.Accounted.last_of_allReady {dashboard : Dashboard}
    (accounted : (store.replies pager).Accounted dashboard) (chain : store.Chain pager none pages)
    (ready : dashboard.AllReady pages.length) :
    ∃ last page, dashboard.page? last = some page ∧ page.status = .ready none := by
  have nonempty := List.length_pos_iff.mpr chain.ne_nil
  obtain ⟨page, next?, found, status⟩ := ready (pages.length - 1) (by omega)
  obtain ⟨listing, inside, same, _⟩ := accounted.listing_in_chain chain found status
  have ends := (chain.next?_eq_none_iff inside).mpr (by omega)
  exact ⟨pages.length - 1, page, found, (same.trans ends) ▸ status⟩

def RunResult.exported (painted : Bool) (format : ExportFormat) (path? : Option String)
    (reports : List Report) (pages : Nat) : RunResult :=
  match path? with
  | none => { output := format.render reports ++ "\n" }
  | some path =>
      { errors := renderLines painted [wroteLine reports.length pages path]
        files := [(path, format.render reports)] }

variable (chain : store.Chain pager none pages)
  (distinct : ∀ page ∈ pages, (page.entries.map (·.key)).Nodup)
include chain distinct

theorem Session.download_mount {σ : Type} {kind : StoreKind σ} {states : σ → Prop}
    (gives : kind.Gives states store) {state : σ} (inside : states state) (painted : Bool)
    {patience : Nat} (enough : 3 ≤ patience) (longEnough : pages.length ≤ patience)
    (format : ExportFormat) (path? : Option String) :
    (mount kind state pager false).download painted patience format path? =
      .exported painted format path? (store.reportsIn pages) pages.length := by
  have whole : wanted none (pages.length + 0) ≤ patience := longEnough
  obtain ⟨events, after, walked, completes, same, value, -⟩ := walk_mount (gives.serves pager)
    (store.decided_replies pager) chain.trail inside false enough whole
  have accounted := Dashboard.accounted_of_walked walked
  have ready : ((Dashboard.mount pager (kind.location state) false).run events).AllReady
      pages.length := fun index bound => (completes.ready index).mpr bound
  obtain ⟨last, page, found, complete⟩ := accounted.last_of_allReady chain ready
  rw [download, value, ← accounted.reports_of_chain chain distinct found complete, ← same]
  cases path? <;> rfl

theorem Dashboard.reports_of_walk (location : String) (probing : Bool) (events later : List Event)
    {index : Nat} {last : OpenPage}
    (found : ((mount pager location probing).runAt store events).page? index = some last)
    (complete : last.status = .ready none) :
    (((mount pager location probing).runAt store events).unmount.runAt store later).reports =
      store.reportsIn pages := by
  have accounted := accounted_runAt store pager location probing
  have kept := (accounted events).coherent.ready_runAt store found complete
    (.command .unmount :: later)
  have whole := accounted (events ++ .command .unmount :: later)
  rw [runAt_append] at whole
  exact whole.reports_of_chain chain distinct kept complete

/-- All pages of a store that stays the same are one document in each format. The program writes
it when the store answers at once; it is the rendering of a walk that has come to its end, in
whatever order the answers came and whatever still comes after the unmount; and it is what every
site hands out that has shown all pages, whatever it has been asked for before. -/
theorem exports_agree {σ : Type} {kind : StoreKind σ} {states : σ → Prop}
    (gives : kind.Gives states store) (format : ExportFormat) :
    let document := format.render (store.reportsIn pages)
    (∀ state painted patience, states state → 3 ≤ patience → pages.length ≤ patience →
      let session := Session.mount kind state pager false
      session.download painted patience format none = { output := document ++ "\n" } ∧
      ∀ path, (session.download painted patience format (some path)).files = [(path, document)]) ∧
    (∀ location probing events later last,
      let dashboard := (Dashboard.mount pager location probing).runAt store events
      dashboard.page? dashboard.current = some last → last.status = .ready none →
      format.render (dashboard.unmount.runAt store later).reports = document) ∧
    ∀ location probing indexUrl? acts,
      let site := ({ dashboard := .mount pager location probing, location, indexUrl? } : Site).runAt
        store acts
      site.dashboard.AllReady pages.length →
      (site.respond ⟨"GET", Site.exportPath format⟩).1.status = 200 ∧
        (site.respond ⟨"GET", Site.exportPath format⟩).1.body = document := by
  refine ⟨?_, ?_, ?_⟩
  · intro state painted patience inside enough longEnough session
    have written := Session.download_mount chain distinct gives inside painted enough longEnough
      format
    exact ⟨written none, fun path => congrArg RunResult.files (written (some path))⟩
  · intro location probing events later last dashboard found complete
    rw [Dashboard.reports_of_walk chain distinct location probing events later found complete]
  · intro location probing indexUrl? acts site ready
    have start : Site.Faithful store pager
        { dashboard := .mount pager location probing, location, indexUrl? } :=
      ⟨.mounted .., rfl, ExportCache.sound_empty⟩
    have faithful := start.runAt acts
    obtain ⟨last, page, found, complete⟩ := faithful.accounted.last_of_allReady chain ready
    have reports := faithful.accounted.reports_of_chain chain distinct found complete
    exact reports ▸ faithful.respond_export format

end Documents

section Remote

variable [DomainNames]

def RemoteStore.fixed (network : Web.Network) (now : Instant) (remote : RemoteStore) : FixedStore :=
  ⟨fun query => remote.list network now query, fun key => remote.fetch network now key⟩

theorem RemoteStore.kind_gives (network : Web.Network) (now : Instant) (remote : RemoteStore) :
    (RemoteStore.kind network now).Gives (· = remote) (remote.fixed network now) where
  list := by
    rintro state query rfl
    exact ⟨rfl, rfl, rfl, rfl⟩
  fetch := by
    rintro state key rfl
    exact ⟨rfl, rfl, rfl, rfl⟩

end Remote

theorem MemoryStore.kind_gives {store : MemoryStore} (free : store.gated = false) :
    MemoryStore.kind.Gives (· = store) store.fixed where
  list := by
    rintro state query rfl
    exact ⟨rfl, rfl, rfl, rfl⟩
  fetch := by
    rintro state key rfl
    exact ⟨rfl, by simp [MemoryStore.kind, free], rfl, rfl⟩

/-- Two pages, one report among three objects. The walk is taken down before its reports are read,
and the site is asked for a rendering before its first page is ready. -/
theorem two_pages_exported_alike :
    let body := Utf8.encode "\x7b\"SitemapName\":\"a\"\x7d"
    let store := ((MemoryStore.insert {} "c.json" ⟨[], none⟩).insert "b.txt" ⟨[], none⟩).insert
      "a.json" ⟨body, none⟩
    let pager : Pager := { keyPrefix := "", pageSize := 2 }
    let pages : List ObjectPage :=
      [⟨[⟨"a.json", none⟩, ⟨"b.txt", none⟩], some "2"⟩, ⟨[⟨"c.json", none⟩], none⟩]
    let document := ExportFormat.linkedData.render (store.fixed.reportsIn pages)
    let walked := (Dashboard.mount pager "store" false).runAt store.fixed [.askListing 0,
      .takeListing 0 (.ok {}), .place 0, .takeFetch 0 0 (.error (.notFound "")), .publish 0,
      .command .next, .askListing 1, .takeListing 1 (.ok {}), .place 1,
      .takeFetch 1 0 (.error (.notFound "")), .publish 1]
    let site := ({ dashboard := .mount pager "store" false, location := "store", indexUrl? := none } :
      Site).runAt store.fixed [.work (.askListing 0), .request ⟨"GET", "/export/report.jsonld"⟩,
        .work (.takeListing 0 (.ok {})), .work (.place 0),
        .work (.takeFetch 0 0 (.error (.notFound ""))), .work (.publish 0),
        .request ⟨"GET", "/?page=1"⟩, .work (.askListing 1), .work (.takeListing 1 (.ok {})),
        .work (.place 1), .work (.takeFetch 1 0 (.error (.notFound ""))), .work (.publish 1)]
    MemoryStore.kind.Gives (· = store) store.fixed ∧ store.fixed.Chain pager none pages ∧
      (∀ page ∈ pages, (page.entries.map (·.key)).Nodup) ∧ site.dashboard.AllReady 2 ∧
      (store.fixed.reportsIn pages).map (·.sitemap) = ["a"] ∧
      (Session.mount MemoryStore.kind store pager false).download false 3 .linkedData none =
        { output := document ++ "\n" } ∧
      ExportFormat.linkedData.render (walked.unmount.runAt store.fixed [.askCount]).reports =
        document ∧
      (site.respond ⟨"GET", "/export/report.jsonld"⟩).1.body = document := by
  intro body store pager pages document walked site
  have gives : MemoryStore.kind.Gives (· = store) store.fixed := MemoryStore.kind_gives rfl
  have chain : store.fixed.Chain pager none pages :=
    .more (by decide +kernel) rfl (.last (by decide +kernel) rfl)
  have distinct : ∀ page ∈ pages, (page.entries.map (·.key)).Nodup := by decide +kernel
  have shown : ((site.dashboard.page? 0).any fun page => page.status = .ready (some "2")) ∧
      (site.dashboard.page? 1).any fun page => page.status = .ready none := by
    decide +kernel
  have ready : site.dashboard.AllReady 2 := by
    obtain ⟨first, foundFirst, readyFirst⟩ := (Option.any_eq_true ..).mp shown.1
    obtain ⟨second, foundSecond, readySecond⟩ := (Option.any_eq_true ..).mp shown.2
    intro index bound
    obtain rfl | rfl : index = 0 ∨ index = 1 := by omega
    · exact ⟨first, some "2", foundFirst, of_decide_eq_true readyFirst⟩
    · exact ⟨second, none, foundSecond, of_decide_eq_true readySecond⟩
  have ended : (walked.page? walked.current).any fun page => page.status = .ready none := by
    decide +kernel
  obtain ⟨last, found, complete⟩ := (Option.any_eq_true ..).mp ended
  obtain ⟨written, shownLater, served⟩ := exports_agree chain distinct gives .linkedData
  refine ⟨gives, chain, distinct, ready, by decide +kernel, ?_, ?_, ?_⟩
  · exact (written store false 3 rfl (by decide) (by decide)).1
  · exact shownLater "store" false _ [.askCount] last found (of_decide_eq_true complete)
  · exact (served "store" false none _ ready).2

end CrawlBoard
