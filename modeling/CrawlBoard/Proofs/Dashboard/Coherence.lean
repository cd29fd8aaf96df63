import CrawlBoard.Proofs.Dashboard.Change
import Mathlib.Data.List.Nodup
/-!
How open pages and unfinished loads belong together. The pages form an unbroken chain in which
each one but the last is ready and has published the token that the next one was loaded with.
-/

namespace CrawlBoard.Dashboard

structure Coherent (dashboard : Dashboard) : Prop where
  indices : dashboard.pages.map (·.1) = List.range dashboard.pages.length
  current_lt : dashboard.current < dashboard.pages.length
  chained : ∀ index page, dashboard.page? index = some page →
    index + 1 < dashboard.pages.length → ∃ token, page.status = .ready (some token)
  serials : (dashboard.loads.map (·.serial)).Nodup
  fresh : ∀ load ∈ dashboard.loads, load.serial < dashboard.serial
  filling : ∀ load ∈ dashboard.loads, ∃ page, dashboard.page? load.page = some page ∧
    page.serial = load.serial ∧ page.status = .loading
  awaited : dashboard.unmounted = false → ∀ index page, dashboard.page? index = some page →
    page.status = .loading → ∃ load ∈ dashboard.loads, load.page = index
  entered : ∀ load ∈ dashboard.loads, dashboard.entrance? load.page = some load.token?

theorem entrance?_succ (dashboard : Dashboard) (index : Nat) (token? : Option String) :
    dashboard.entrance? (index + 1) = some token? ↔ ∃ page token,
      dashboard.page? index = some page ∧ page.status = .ready (some token) ∧
        token? = some token := by
  simp only [entrance?]
  constructor
  · intro entrance
    cases lookup : dashboard.page? index with
    | none => simp [lookup] at entrance
    | some page =>
        cases status : page.status with
        | ready next? =>
            cases next? with
            | none => simp [lookup, status, PageStatus.next?] at entrance
            | some token =>
                have same : some token = token? := by
                  simpa [lookup, status, PageStatus.next?] using entrance
                exact ⟨page, token, rfl, status, same.symm⟩
        | _ => simp [lookup, status, PageStatus.next?] at entrance
  · rintro ⟨page, token, lookup, status, rfl⟩
    simp [lookup, status, PageStatus.next?]

theorem next?_of_failed {status : PageStatus} (failed : status.isFailed) : status.next? = none := by
  cases status with
  | failed message => rfl
  | _ => cases failed

namespace Coherent

variable {dashboard after : Dashboard} {event : Event}

theorem page_isSome_iff (coherent : Coherent dashboard) (index : Nat) :
    (dashboard.page? index).isSome ↔ index < dashboard.pages.length := by
  rw [page?, Lookup.lookup_isSome_iff_mem, coherent.indices, List.mem_range]

theorem lt_of_page (coherent : Coherent dashboard) {index : Nat} {page : OpenPage}
    (found : dashboard.page? index = some page) : index < dashboard.pages.length :=
  (coherent.page_isSome_iff index).mp (by simp [found])

theorem page_of_lt (coherent : Coherent dashboard) {index : Nat}
    (bound : index < dashboard.pages.length) : ∃ page, dashboard.page? index = some page :=
  Option.isSome_iff_exists.mp ((coherent.page_isSome_iff index).mpr bound)

theorem page?_updatePage (coherent : Coherent dashboard) {load : Load}
    (member : load ∈ dashboard.loads) (change : OpenPage → OpenPage) (index : Nat) :
    (dashboard.updatePage load change).page? index =
      if index = load.page then (dashboard.page? index).map change
      else dashboard.page? index := by
  obtain ⟨page, found, serial, _⟩ := coherent.filling load member
  rw [Dashboard.page?_updatePage]
  by_cases same : index = load.page
  · subst same
    simp [found, serial]
  · simp [same]

theorem page?_published (coherent : Coherent dashboard) {load : Load}
    (member : load ∈ dashboard.loads) (status : PageStatus) (index : Nat) :
    (dashboard.published load status).page? index =
      if index = load.page then (dashboard.page? index).map fun page => { page with status }
      else dashboard.page? index := by
  rw [Dashboard.page?_published, coherent.page?_updatePage member]

theorem filled (coherent : Coherent dashboard) {load : Load} (member : load ∈ dashboard.loads)
    {page : OpenPage} (found : dashboard.page? load.page = some page) :
    page.serial = load.serial ∧ page.status = .loading := by
  obtain ⟨present, foundPresent, serial, loading⟩ := coherent.filling load member
  obtain rfl : present = page := Option.some.inj (foundPresent.symm.trans found)
  exact ⟨serial, loading⟩

theorem load_unique (coherent : Coherent dashboard) {first second : Load}
    (firstMember : first ∈ dashboard.loads) (secondMember : second ∈ dashboard.loads)
    (same : first.serial = second.serial) : first = second :=
  List.inj_on_of_nodup_map coherent.serials firstMember secondMember same

theorem load?_of_mem (coherent : Coherent dashboard) {load : Load}
    (member : load ∈ dashboard.loads) : dashboard.load? load.serial = some load := by
  have present : (dashboard.load? load.serial).isSome :=
    List.find?_isSome.mpr ⟨load, member, by simp⟩
  obtain ⟨other, found⟩ := Option.isSome_iff_exists.mp present
  obtain ⟨otherMember, same⟩ := load_of_load? dashboard load.serial other found
  exact coherent.load_unique otherMember member same ▸ found

/-- A load changes only the page that it fills, and that page is loading. -/
theorem settled_updatePage (coherent : Coherent dashboard) {load : Load}
    (member : load ∈ dashboard.loads) (change : OpenPage → OpenPage) {index : Nat} {page : OpenPage}
    (found : dashboard.page? index = some page) (settled : page.status ≠ .loading) :
    (dashboard.updatePage load change).page? index = some page := by
  rw [coherent.page?_updatePage member]
  by_cases same : index = load.page
  · subst same
    exact absurd (coherent.filled member found).2 settled
  · rw [if_neg same, found]

theorem page_ne (coherent : Coherent dashboard) {first second : Load}
    (firstMember : first ∈ dashboard.loads) (secondMember : second ∈ dashboard.loads)
    (different : first.serial ≠ second.serial) : first.page ≠ second.page := by
  intro same
  obtain ⟨page, found, serial, _⟩ := coherent.filling first firstMember
  have otherSerial := (coherent.filled secondMember (same ▸ found)).1
  exact different (serial.symm.trans otherSerial)

/-- A page that is not loading stays as it is, unless it has failed and is loaded again. -/
theorem settled_kept (coherent : Coherent dashboard) (change : Change dashboard event after)
    {index : Nat} {page : OpenPage} (found : dashboard.page? index = some page)
    (settled : page.status ≠ .loading) : after.page? index = some page ∨
      page.status.isFailed ∧ ∃ token?, after = dashboard.startLoad index token? := by
  cases change with
  | start command opened token? mounted reachable vacant =>
      by_cases same : index = opened
      · subst same
        exact .inr ⟨vacant page found, token?, rfl⟩
      · exact .inl (by rw [page?_startLoad, if_neg same, found])
  | place load listed foundLoad stage mounted =>
      rw [page?_placed]
      exact .inl (coherent.settled_updatePage (mem_of_load? foundLoad) _ found settled)
  | fetch load fetching position answer foundLoad stage =>
      rw [page?_fetched]
      exact .inl (coherent.settled_updatePage (mem_of_load? foundLoad) _ found settled)
  | publish load status foundLoad verdict mounted =>
      rw [Dashboard.page?_published]
      exact .inl (coherent.settled_updatePage (mem_of_load? foundLoad) _ found settled)
  | _ => exact .inl found

theorem ready_kept (coherent : Coherent dashboard) (change : Change dashboard event after)
    {index : Nat} {page : OpenPage} {next? : Option String}
    (found : dashboard.page? index = some page) (ready : page.status = .ready next?) :
    after.page? index = some page := by
  rcases coherent.settled_kept change found (by simp [ready]) with kept | ⟨failed, _⟩
  · exact kept
  · simp [ready, PageStatus.isFailed] at failed

theorem entrance_kept (coherent : Coherent dashboard) (change : Change dashboard event after)
    {index : Nat} {token? : Option String} (entrance : dashboard.entrance? index = some token?) :
    after.entrance? index = some token? := by
  cases index with
  | zero => exact entrance
  | succ index =>
      obtain ⟨page, token, found, ready, same⟩ :=
        (entrance?_succ dashboard index token?).mp entrance
      exact (entrance?_succ after index token?).mpr
        ⟨page, token, coherent.ready_kept change found ready, ready, same⟩

theorem mounted (pager : Pager) (location : String) (probing : Bool) :
    Coherent (mount pager location probing) where
  indices := rfl
  current_lt := Nat.zero_lt_one
  chained := by
    intro index page _ inside
    exact absurd (Nat.lt_of_succ_lt_succ inside) (Nat.not_lt_zero index)
  serials := List.nodup_singleton _
  fresh := by
    intro load member
    rw [List.mem_singleton.mp member]
    exact Nat.zero_lt_one
  filling := by
    intro load member
    rw [List.mem_singleton.mp member]
    exact ⟨_, rfl, rfl, rfl⟩
  awaited := by
    intro _ index page found _
    rw [mount, page?_startLoad] at found
    split at found
    · rename_i same
      exact ⟨_, List.mem_singleton.mpr rfl, same.symm⟩
    · cases found
  entered := by
    intro load member
    rw [List.mem_singleton.mp member]
    rfl

theorem setStage (coherent : Coherent dashboard) (serial : Nat) (stage : LoadStage) :
    Coherent (dashboard.setStage serial stage) := by
  have origin : ∀ load ∈ (dashboard.setStage serial stage).loads, ∃ old ∈ dashboard.loads,
      old.serial = load.serial ∧ old.page = load.page ∧ old.token? = load.token? := by
    intro load member
    rcases (mem_setStage ..).mp member with ⟨present, _⟩ | ⟨old, present, _, rfl⟩
    · exact ⟨load, present, rfl, rfl, rfl⟩
    · exact ⟨old, present, rfl, rfl, rfl⟩
  constructor
  case indices => exact coherent.indices
  case current_lt => exact coherent.current_lt
  case chained => exact coherent.chained
  case serials => simpa only [serials_setStage] using coherent.serials
  case fresh =>
    intro load member
    obtain ⟨old, present, serial, _, _⟩ := origin load member
    exact serial ▸ coherent.fresh old present
  case filling =>
    intro load member
    obtain ⟨old, present, serial, page, _⟩ := origin load member
    rw [← serial, ← page]
    exact coherent.filling old present
  case awaited =>
    intro mounted index page found loading
    obtain ⟨load, member, same⟩ := coherent.awaited mounted index page found loading
    by_cases this : load.serial = serial
    · exact ⟨{ load with stage }, (mem_setStage ..).mpr (.inr ⟨load, member, this, rfl⟩), same⟩
    · exact ⟨load, (mem_setStage ..).mpr (.inl ⟨member, this⟩), same⟩
  case entered =>
    intro load member
    obtain ⟨old, present, _, page, token⟩ := origin load member
    rw [← page, ← token]
    exact coherent.entered old present

theorem updateItems (coherent : Coherent dashboard) {load : Load}
    (member : load ∈ dashboard.loads) (items : OpenPage → PageItems) :
    Coherent (dashboard.updatePage load fun page => { page with items := items page }) := by
  have lookup (index : Nat) (page : OpenPage) (found : (dashboard.updatePage load fun page =>
      { page with items := items page }).page? index = some page) :
      ∃ old, dashboard.page? index = some old ∧ old.serial = page.serial ∧
        old.status = page.status := by
    rw [coherent.page?_updatePage member] at found
    split at found
    · obtain ⟨old, foundOld, rfl⟩ := Option.map_eq_some_iff.mp found
      exact ⟨old, foundOld, rfl, rfl⟩
    · exact ⟨page, found, rfl, rfl⟩
  -- Statuses and serials are untouched, and the invariant speaks of nothing else.
  constructor
  case indices => simpa only [keys_updatePage, length_pages_updatePage] using coherent.indices
  case current_lt =>
    rw [length_pages_updatePage]
    exact coherent.current_lt
  case chained =>
    intro index page found inside
    rw [length_pages_updatePage] at inside
    obtain ⟨old, foundOld, _, status⟩ := lookup index page found
    exact status ▸ coherent.chained index old foundOld inside
  case serials => exact coherent.serials
  case fresh => exact coherent.fresh
  case filling =>
    intro other otherMember
    obtain ⟨page, found, serial, loading⟩ := coherent.filling other otherMember
    rw [coherent.page?_updatePage member]
    split
    · exact ⟨{ page with items := items page }, by rw [found, Option.map_some], serial, loading⟩
    · exact ⟨page, found, serial, loading⟩
  case awaited =>
    intro mounted index page found loading
    obtain ⟨old, foundOld, _, status⟩ := lookup index page found
    exact coherent.awaited mounted index old foundOld (status.trans loading)
  case entered =>
    intro other otherMember
    have entrance := coherent.entered other otherMember
    cases index : other.page with
    | zero => simpa only [index, entrance?] using entrance
    | succ before =>
        rw [index] at entrance
        obtain ⟨page, token, found, ready, same⟩ := (entrance?_succ ..).mp entrance
        refine (entrance?_succ ..).mpr ⟨page, token, ?_, ready, same⟩
        exact coherent.settled_updatePage member _ found (by simp [ready])

theorem dropLoad (coherent : Coherent dashboard) (unmounted : dashboard.unmounted = true)
    (serial : Nat) : Coherent (dashboard.dropLoad serial) where
  indices := coherent.indices
  current_lt := coherent.current_lt
  chained := coherent.chained
  serials := coherent.serials.sublist (List.filter_sublist.map _)
  fresh load member := coherent.fresh load ((mem_dropLoad ..).mp member).1
  filling load member := coherent.filling load ((mem_dropLoad ..).mp member).1
  awaited mounted := absurd (unmounted.symm.trans mounted) (by decide)
  entered load member := coherent.entered load ((mem_dropLoad ..).mp member).1

theorem published (coherent : Coherent dashboard) {load : Load} {status : PageStatus}
    (found : dashboard.load? load.serial = some load)
    (change : Change dashboard event (dashboard.published load status))
    (ended : status ≠ .loading) : Coherent (dashboard.published load status) := by
  have member := mem_of_load? found
  have remains (other : Load) : other ∈ (dashboard.published load status).loads ↔
      other ∈ dashboard.loads ∧ other.serial ≠ load.serial := mem_dropLoad ..
  have elsewhere (index : Nat) (other : index ≠ load.page) :
      (dashboard.published load status).page? index = dashboard.page? index := by
    rw [coherent.page?_published member, if_neg other]
  have length : (dashboard.published load status).pages.length = dashboard.pages.length :=
    length_pages_updatePage (dashboard.dropLoad load.serial) load _
  constructor
  case indices =>
    rw [length]
    exact (keys_updatePage (dashboard.dropLoad load.serial) load _).trans coherent.indices
  case current_lt =>
    rw [length]
    exact coherent.current_lt
  case chained =>
    intro index page foundPage inside
    rw [length] at inside
    by_cases same : index = load.page
    · -- The page was loading, so it is the last one of the chain.
      obtain ⟨old, foundOld, _, loading⟩ := coherent.filling load member
      obtain ⟨token, ready⟩ := coherent.chained index old (same ▸ foundOld) inside
      rw [loading] at ready
      cases ready
    · exact coherent.chained index page ((elsewhere index same).symm.trans foundPage) inside
  case serials => exact coherent.serials.sublist (List.filter_sublist.map _)
  case fresh =>
    intro other otherMember
    exact coherent.fresh other ((remains other).mp otherMember).1
  case filling =>
    intro other otherMember
    obtain ⟨present, different⟩ := (remains other).mp otherMember
    rw [elsewhere other.page (coherent.page_ne present member different)]
    exact coherent.filling other present
  case awaited =>
    intro mounted index page foundPage loading
    by_cases same : index = load.page
    · rw [coherent.page?_published member, if_pos same] at foundPage
      obtain ⟨old, _, rfl⟩ := Option.map_eq_some_iff.mp foundPage
      exact absurd loading ended
    · rw [elsewhere index same] at foundPage
      obtain ⟨other, present, atIndex⟩ := coherent.awaited mounted index page foundPage loading
      have different : other.serial ≠ load.serial := by
        intro equal
        have sameLoad := coherent.load_unique present member equal
        exact same (atIndex.symm.trans (congrArg Load.page sameLoad))
      exact ⟨other, (remains other).mpr ⟨present, different⟩, atIndex⟩
  case entered =>
    intro other otherMember
    exact coherent.entrance_kept change (coherent.entered other ((remains other).mp otherMember).1)

theorem le_length_of_entrance (coherent : Coherent dashboard) {page : Nat} {token? : Option String}
    (reachable : dashboard.entrance? page = some token?) : page ≤ dashboard.pages.length := by
  cases page with
  | zero => exact Nat.zero_le _
  | succ before =>
      obtain ⟨present, _, found, _⟩ := (entrance?_succ ..).mp reachable
      exact coherent.lt_of_page found

theorem length_of_last (coherent : Coherent dashboard) {index : Nat} {page : OpenPage}
    (found : dashboard.page? index = some page) (last : page.status.next? = none) :
    dashboard.pages.length = index + 1 := by
  have inside := coherent.lt_of_page found
  by_contra other
  obtain ⟨token, ready⟩ := coherent.chained index page found (by omega)
  rw [ready] at last
  cases last

theorem flatMap_pages (coherent : Coherent dashboard) {α : Type} (content : OpenPage → List α)
    (expected : Nat → List α) (agree : ∀ index page, dashboard.page? index = some page →
      content page = expected index) :
    (dashboard.pages.flatMap fun entry => content entry.2) =
      (List.range dashboard.pages.length).flatMap expected := by
  have distinct : (dashboard.pages.map (·.1)).Nodup := coherent.indices ▸ List.nodup_range
  rw [← coherent.indices, List.flatMap_map]
  apply List.flatMap_congr
  intro entry member
  exact agree entry.1 entry.2 (Lookup.lookup_eq_some_of_mem distinct member)

theorem keys_startLoad (coherent : Coherent dashboard) {page : Nat} {token? : Option String}
    (reachable : dashboard.entrance? page = some token?)
    (vacant : ∀ present, dashboard.page? page = some present → present.status.isFailed) :
    (dashboard.startLoad page token?).pages.map (·.1) = List.range (page + 1) := by
  have bound := coherent.le_length_of_entrance reachable
  have keys := keys_putPage page ⟨dashboard.serial, .empty, .loading⟩ dashboard.pages 0
    (by rw [coherent.indices, List.range_eq_range']) (Nat.zero_le _) (by omega)
  change (putPage page ⟨dashboard.serial, .empty, .loading⟩ dashboard.pages).map (·.1) = _
  rw [keys, Nat.zero_add, List.range_eq_range']
  by_cases behind : page = dashboard.pages.length
  · rw [if_pos behind, behind]
  · obtain ⟨present, found⟩ := coherent.page_of_lt (by omega : page < dashboard.pages.length)
    rw [if_neg behind, coherent.length_of_last found (next?_of_failed (vacant present found))]

theorem page_ne_of_vacant (coherent : Coherent dashboard) {page : Nat}
    (vacant : ∀ present, dashboard.page? page = some present → present.status.isFailed)
    {load : Load} (member : load ∈ dashboard.loads) : load.page ≠ page := by
  rintro rfl
  obtain ⟨present, found, _, loading⟩ := coherent.filling load member
  simpa [loading, PageStatus.isFailed] using vacant present found

theorem startLoad (coherent : Coherent dashboard) {page : Nat} {token? : Option String}
    (change : Change dashboard event (dashboard.startLoad page token?))
    (reachable : dashboard.entrance? page = some token?)
    (vacant : ∀ present, dashboard.page? page = some present → present.status.isFailed) :
    Coherent (dashboard.startLoad page token?) := by
  have keys := coherent.keys_startLoad reachable vacant
  have length : (dashboard.startLoad page token?).pages.length = page + 1 := by
    simpa using congrArg List.length keys
  have elsewhere (index : Nat) (other : index ≠ page) :
      (dashboard.startLoad page token?).page? index = dashboard.page? index := by
    rw [page?_startLoad, if_neg other]
  have loads (load : Load) : load ∈ (dashboard.startLoad page token?).loads ↔
      load ∈ dashboard.loads ∨ load = ⟨dashboard.serial, page, token?, .asking⟩ :=
    List.mem_append.trans (or_congr_right List.mem_singleton)
  -- The new load gets the page behind the chain, or one that has failed and so ends it.
  constructor
  case indices => rw [length, keys]
  case current_lt =>
    rw [length]
    exact Nat.lt_succ_self page
  case chained =>
    intro index present found inside
    rw [length] at inside
    rw [elsewhere index (by omega)] at found
    by_cases before : index + 1 = page
    · obtain ⟨ready, token, foundReady, status, _⟩ :=
        (entrance?_succ ..).mp (before ▸ reachable)
      rw [foundReady] at found
      cases found
      exact ⟨token, status⟩
    · have bound := coherent.le_length_of_entrance reachable
      exact coherent.chained index present found (by omega)
  case serials =>
    have appended : (dashboard.startLoad page token?).loads.map (·.serial) =
        dashboard.loads.map (·.serial) ++ [dashboard.serial] := List.map_append
    rw [appended]
    refine coherent.serials.append (List.nodup_singleton _) ?_
    intro serial member new
    obtain ⟨load, present, rfl⟩ := List.mem_map.mp member
    exact Nat.lt_irrefl _ (List.mem_singleton.mp new ▸ coherent.fresh load present)
  case fresh =>
    intro load member
    rcases (loads load).mp member with present | rfl
    · exact Nat.lt_succ_of_lt (coherent.fresh load present)
    · exact Nat.lt_succ_self dashboard.serial
  case filling =>
    intro load member
    rcases (loads load).mp member with present | rfl
    · rw [elsewhere load.page (coherent.page_ne_of_vacant vacant present)]
      exact coherent.filling load present
    · exact ⟨⟨dashboard.serial, .empty, .loading⟩, by rw [page?_startLoad, if_pos rfl], rfl, rfl⟩
  case awaited =>
    intro mounted index present found loading
    by_cases same : index = page
    · exact ⟨_, (loads _).mpr (.inr rfl), same.symm⟩
    · rw [elsewhere index same] at found
      obtain ⟨load, member, atIndex⟩ := coherent.awaited mounted index present found loading
      exact ⟨load, (loads load).mpr (.inl member), atIndex⟩
  case entered =>
    intro load member
    rcases (loads load).mp member with present | rfl
    · exact coherent.entrance_kept change (coherent.entered load present)
    · exact coherent.entrance_kept change reachable

theorem verdict?_ne_loading {load : Load} {status : PageStatus}
    (verdict : dashboard.verdict? load = some status) : status ≠ .loading := by
  rintro rfl
  unfold verdict? at verdict
  split at verdict
  · cases verdict
  · split at verdict <;> cases verdict
  · cases verdict

theorem change (coherent : Coherent dashboard) (change : Change dashboard event after) :
    Coherent after := by
  have whole := change
  cases change with
  | idle event => exact coherent
  | askCount pass counting => exact { coherent with }
  | takeCount answer => exact { coherent with }
  | settleCount result ended => exact { coherent with }
  | settleProbe answer => exact { coherent with }
  | unmount => exact { coherent with awaited := fun mounted => nomatch mounted }
  | turn command page mounted opened =>
      exact { coherent with current_lt := (coherent.page_isSome_iff page).mp opened }
  | start command page token? mounted reachable vacant =>
      exact coherent.startLoad whole reachable vacant
  | ask load found asking => exact coherent.setStage load.serial .listing
  | list load answer found listing => exact coherent.setStage load.serial (.ofAnswer answer)
  | place load listed found stage mounted =>
      exact (coherent.updateItems (mem_of_load? found) _).setStage load.serial _
  | fetch load fetching position answer found stage =>
      exact (coherent.updateItems (mem_of_load? found) _).setStage load.serial _
  | publish load status found verdict mounted =>
      exact coherent.published found whole (verdict?_ne_loading verdict)
  | abandon event load found unmounted => exact coherent.dropLoad unmounted load.serial

theorem run (coherent : Coherent dashboard) (events : List Event) :
    Coherent (dashboard.run events) :=
  run_keeps Coherent (fun _ _ _ kept step => kept.change step) dashboard coherent events

theorem entrance_run (coherent : Coherent dashboard) (events : List Event) {index : Nat}
    {token? : Option String} (entrance : dashboard.entrance? index = some token?) :
    (dashboard.run events).entrance? index = some token? :=
  (run_keeps (fun later => Coherent later ∧ later.entrance? index = some token?)
    (fun _ _ _ kept step => ⟨kept.1.change step, kept.1.entrance_kept step kept.2⟩)
    dashboard ⟨coherent, entrance⟩ events).2

theorem ready_run (coherent : Coherent dashboard) (events : List Event) {index : Nat}
    {page : OpenPage} {next? : Option String} (found : dashboard.page? index = some page)
    (ready : page.status = .ready next?) : (dashboard.run events).page? index = some page :=
  (run_keeps (fun later => Coherent later ∧ later.page? index = some page)
    (fun _ _ _ kept step => ⟨kept.1.change step, kept.1.ready_kept step kept.2 ready⟩)
    dashboard ⟨coherent, found⟩ events).2

theorem token_of_load (coherent : Coherent dashboard) {load : Load}
    (member : load ∈ dashboard.loads) (events : List Event) :
    (load.page = 0 → load.token? = none) ∧
    ∀ index, load.page = index + 1 → ∃ page token, (dashboard.run events).page? index = some page ∧
      page.status = .ready (some token) ∧ load.token? = some token := by
  have entrance := coherent.entrance_run events (coherent.entered load member)
  constructor
  · intro first
    rw [first] at entrance
    exact (Option.some.inj entrance).symm
  · intro index following
    rw [following] at entrance
    exact (entrance?_succ ..).mp entrance

theorem load_pages_nodup (coherent : Coherent dashboard) :
    (dashboard.loads.map (·.page)).Nodup := by
  refine (List.nodup_map_iff_inj_on (List.Nodup.of_map _ coherent.serials)).mpr ?_
  intro first firstMember second secondMember same
  refine coherent.load_unique firstMember secondMember ?_
  by_contra different
  exact coherent.page_ne firstMember secondMember different same

theorem loading_iff (coherent : Coherent dashboard) (mounted : dashboard.unmounted = false)
    {index : Nat} {page : OpenPage} (found : dashboard.page? index = some page) :
    page.status = .loading ↔ ∃ load ∈ dashboard.loads, load.page = index := by
  constructor
  · exact coherent.awaited mounted index page found
  · rintro ⟨load, member, rfl⟩
    exact (coherent.filled member found).2

end Coherent

/-- In every state of a run the open pages are the first ones, and each of them but the last is
ready and has a token. Every load there has been was started with the token of the page before
its own, and a page is loading exactly as long as it has an unfinished load, of which there is
never more than one. -/
theorem pages_chained_and_loads_matched (pager : Pager) (location : String) (probing : Bool)
    (events : List Event) :
    let mounted := mount pager location probing
    let dashboard := mounted.run events
    ∃ last,
      dashboard.pages.map (·.1) = List.range (last + 1) ∧
      (∀ index < last, ∃ page token, dashboard.page? index = some page ∧
        page.status = .ready (some token)) ∧
      dashboard.current ≤ last ∧
      (∀ earlier, earlier <+: events → ∀ load ∈ (mounted.run earlier).loads,
        (load.page = 0 → load.token? = none) ∧
        ∀ index, load.page = index + 1 → ∃ page token, dashboard.page? index = some page ∧
          page.status = .ready (some token) ∧ load.token? = some token) ∧
      (dashboard.loads.map (·.page)).Nodup ∧
      (dashboard.unmounted = false → ∀ index page, dashboard.page? index = some page →
        (page.status = .loading ↔ ∃ load ∈ dashboard.loads, load.page = index)) := by
  intro mounted dashboard
  have coherent : Coherent dashboard := (Coherent.mounted pager location probing).run events
  have positive : 0 < dashboard.pages.length := Nat.zero_lt_of_lt coherent.current_lt
  have length : dashboard.pages.length - 1 + 1 = dashboard.pages.length :=
    Nat.sub_add_cancel positive
  refine ⟨dashboard.pages.length - 1, ?_, ?_, ?_, ?_, coherent.load_pages_nodup, ?_⟩
  · rw [length]
    exact coherent.indices
  · intro index bound
    obtain ⟨page, found⟩ := coherent.page_of_lt (by omega : index < dashboard.pages.length)
    obtain ⟨token, ready⟩ := coherent.chained index page found (by omega)
    exact ⟨page, token, found, ready⟩
  · exact Nat.le_sub_one_of_lt coherent.current_lt
  · rintro earlier ⟨later, rfl⟩ load member
    have before : Coherent (mounted.run earlier) :=
      (Coherent.mounted pager location probing).run earlier
    have resumed : dashboard = (mounted.run earlier).run later := run_append ..
    rw [resumed]
    exact before.token_of_load member later
  · intro isMounted index page found
    exact coherent.loading_iff isMounted found

end CrawlBoard.Dashboard
