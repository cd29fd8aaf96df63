import CrawlBoard.Dashboard.Walk
import CrawlBoard.Proofs.Dashboard.ListingTrail
import CrawlBoard.Proofs.Dashboard.Listings
/-!
Walks over the pages of a dashboard, while its work goes on in any order. A walk opens one page of
the trail after the other and asks for each listing once.
-/

namespace CrawlBoard

def StoreCall.isListing : StoreCall → Bool
  | .listing _ _ => true
  | _ => false

inductive Look where
  | waits
  | ends (result : Except WalkError Nat)
  | goesOn
  deriving DecidableEq

namespace Dashboard

/-- What a walk up to a page, or to the last one, does at the current page. -/
def look (last? : Option Nat) (dashboard : Dashboard) : Look :=
  match (dashboard.page? dashboard.current).elim .loading OpenPage.status with
  | .loading => .waits
  | .failed message => .ends (.error (.page message))
  | .ready next? =>
      if last? = some dashboard.current ∨ next?.isNone then .ends (.ok (dashboard.current + 1))
      else .goesOn

def Walks (replies : Replies) (last? : Option Nat) (dashboard : Dashboard) : Event → Prop
  | .command command => command = .next ∧ dashboard.look last? = .goesOn
  | event => replies.Admits dashboard event

/-- A run in which nothing moves the dashboard but the walk. -/
def Walked (replies : Replies) (last? : Option Nat) (dashboard : Dashboard) (events : List Event) :
    Prop :=
  ∀ taken ∈ dashboard.steps events, taken.1.Walks replies last? taken.2

theorem run_cons (dashboard : Dashboard) (event : Event) (events : List Event) :
    dashboard.run (event :: events) = (dashboard.step event).1.run events := rfl

end Dashboard

theorem Session.walk_eq {σ : Type} (last? : Option Nat) (steps fuel : Nat) (session : Session σ) :
    session.walk last? steps (fuel + 1) =
      match (session.settle steps steps).dashboard.look last? with
      | .waits => (.error .endless, session.settle steps steps)
      | .ends result => (result, session.settle steps steps)
      | .goesOn =>
          match (session.settle steps steps).perform .next with
          | .error error => (.error (.navigation error), session.settle steps steps)
          | .ok onward => onward.walk last? steps fuel := by
  rw [Session.walk]
  unfold Dashboard.look
  generalize session.settle steps steps = after
  cases (after.dashboard.page? after.dashboard.current).elim .loading OpenPage.status with
  | loading => rfl
  | failed message => rfl
  | ready next? =>
      dsimp only
      split <;> rfl

/-- A walk is at the page: it has opened the pages up to it, each with one load. -/
structure AtPage (replies : Replies) (pager : Pager) (page : Nat) (dashboard : Dashboard) : Prop where
  accounted : replies.Accounted dashboard
  samePager : dashboard.pager = pager
  mounted : dashboard.unmounted = false
  current : dashboard.current = page
  length : dashboard.pages.length = page + 1
  serial : dashboard.serial = page + 1
  numbered : ∀ load ∈ dashboard.loads, load.serial = load.page

namespace AtPage

open Dashboard

variable {replies : Replies} {pager : Pager} {page : Nat} {dashboard : Dashboard}
  {last? : Option Nat}

theorem mounting (replies : Replies) (pager : Pager) (location : String) (probing : Bool) :
    AtPage replies pager 0 (.mount pager location probing) where
  accounted := .mounted ..
  samePager := rfl
  mounted := rfl
  current := rfl
  length := rfl
  serial := rfl
  numbered load member := by rw [List.mem_singleton.mp member]

theorem coherent (here : AtPage replies pager page dashboard) : dashboard.Coherent :=
  here.accounted.coherent

theorem work (here : AtPage replies pager page dashboard) {event : Event}
    (noCommand : ∀ command, event ≠ .command command)
    (admits : replies.Admits dashboard event) :
    AtPage replies pager page (dashboard.step event).1 := by
  have change := step_change dashboard event
  have still := change.still noCommand
  have accounted := here.accounted.change change admits
  have continues := change.continues.resolve_right fun ⟨command, same⟩ => noCommand command same
  constructor
  case accounted => exact accounted
  case samePager => exact (pager_of_change change).trans here.samePager
  case mounted => exact still.2.trans here.mounted
  case current => exact still.1.trans here.current
  case length => exact (continues.length_eq here.coherent accounted.coherent).trans here.length
  case serial => exact continues.serial.trans here.serial
  case numbered =>
    intro load member
    obtain ⟨old, present, same⟩ := continues.loads load member
    rw [same]
    exact here.numbered old present

theorem exists_page (here : AtPage replies pager page dashboard) :
    ∃ opened, dashboard.page? page = some opened :=
  here.coherent.page_of_lt (by rw [here.length]; exact Nat.lt_succ_self page)

theorem page_of_load (here : AtPage replies pager page dashboard) {load : Load}
    (member : load ∈ dashboard.loads) : load.page = page ∧ load.serial = page ∧
      ∀ opened, dashboard.page? page = some opened → opened.status = .loading := by
  obtain ⟨opened, found, _, loading⟩ := here.coherent.filling load member
  have last : load.page = page := by
    have inside := here.coherent.lt_of_page found
    by_contra other
    obtain ⟨token, ready⟩ := here.coherent.chained load.page opened found (by
      rw [here.length] at inside ⊢
      omega)
    rw [loading] at ready
    cases ready
  refine ⟨last, (here.numbered load member).trans last, fun other foundToo => ?_⟩
  obtain rfl := Option.some.inj (found.symm.trans (last ▸ foundToo))
  exact loading

theorem owes_iff (here : AtPage replies pager page dashboard) :
    dashboard.owesListing page = true ↔ ∃ load ∈ dashboard.loads, load.stage = .asking := by
  rw [owesListing_iff, here.serial]
  constructor
  · rintro (later | ⟨load, member, -, asking⟩)
    · exact absurd later (Nat.not_succ_le_self page)
    · exact ⟨load, member, asking⟩
  · rintro ⟨load, member, asking⟩
    exact .inr ⟨load, member, (here.page_of_load member).2.1, asking⟩

theorem owes_of_settled (here : AtPage replies pager page dashboard) {opened : OpenPage}
    (found : dashboard.page? page = some opened) (settled : opened.status ≠ .loading) :
    dashboard.owesListing page = false := by
  rw [← Bool.not_eq_true, here.owes_iff]
  rintro ⟨load, member, -⟩
  exact settled ((here.page_of_load member).2.2 opened found)

/-! ## Going on -/

theorem look_eq (here : AtPage replies pager page dashboard) {opened : OpenPage}
    (found : dashboard.page? page = some opened) : dashboard.look last? =
      match opened.status with
      | .loading => .waits
      | .failed message => .ends (.error (.page message))
      | .ready next? =>
          if last? = some page ∨ next?.isNone then .ends (.ok (page + 1)) else .goesOn := by
  unfold look
  rw [here.current, found]
  rfl

theorem of_goesOn (here : AtPage replies pager page dashboard)
    (goesOn : dashboard.look last? = .goesOn) :
    ∃ opened token, dashboard.page? page = some opened ∧ opened.status = .ready (some token) ∧
      last? ≠ some page := by
  obtain ⟨opened, found⟩ := here.exists_page
  rw [here.look_eq found] at goesOn
  split at goesOn
  · cases goesOn
  · cases goesOn
  · rename_i next? ready
    split at goesOn
    · cases goesOn
    · rename_i neither
      rw [not_or] at neither
      cases next? with
      | none => exact absurd rfl neither.2
      | some token => exact ⟨opened, token, found, ready, neither.1⟩

theorem within_next (here : AtPage replies pager page dashboard)
    (goesOn : dashboard.look last? = .goesOn) (within : ∀ target ∈ last?, page ≤ target) :
    ∀ target ∈ last?, page + 1 ≤ target := by
  intro target wanted
  obtain ⟨_, _, _, _, notLast⟩ := here.of_goesOn goesOn
  have different : page ≠ target := fun same => notLast (same ▸ wanted)
  exact Nat.lt_of_le_of_ne (within target wanted) different

theorem next (here : AtPage replies pager page dashboard)
    (goesOn : dashboard.look last? = .goesOn) : ∃ token?,
      dashboard.perform .next = .ok (dashboard.startLoad (page + 1) token?) ∧
      AtPage replies pager (page + 1) (dashboard.startLoad (page + 1) token?) := by
  obtain ⟨opened, token, found, ready, _⟩ := here.of_goesOn goesOn
  have coherent := here.coherent
  have entrance : dashboard.entrance? (page + 1) = some (some token) :=
    (entrance?_succ ..).mpr ⟨opened, token, found, ready, rfl⟩
  -- All open pages are up to the current one, so the next one is never a retry.
  have vacant : dashboard.page? (page + 1) = none := by
    by_contra isOpen
    have inside := (coherent.page_isSome_iff (page + 1)).mp (Option.isSome_iff_ne_none.mpr isOpen)
    rw [here.length] at inside
    exact Nat.lt_irrefl _ inside
  have moved : dashboard.perform .next = .ok (dashboard.startLoad (page + 1) (some token)) := by
    have target : dashboard.target? .next = some (page + 1) := by rw [target?, here.current]
    rw [coherent.perform_eq here.mounted target]
    simp [approach, entrance, vacant]
  have accounted := here.accounted.change (perform_change dashboard _ .next moved) trivial
  have present := page?_startLoad dashboard (page + 1) (page + 1) (some token)
  rw [if_pos rfl] at present
  refine ⟨some token, moved, ?_⟩
  constructor
  case accounted => exact accounted
  case samePager => exact here.samePager
  case mounted => exact here.mounted
  case current => rfl
  case length => exact accounted.coherent.length_of_last present rfl
  case serial => exact congrArg (· + 1) here.serial
  case numbered =>
    intro load member
    rcases List.mem_append.mp member with old | new
    · exact here.numbered load old
    · rw [List.mem_singleton.mp new]
      exact here.serial

/-! ## Calls for listings -/

def listingCalls (pager : Pager) (pages : List ObjectPage) (count : Nat) : List StoreCall :=
  (List.range count).map fun index => .listing index (pager.query (tokenOf pages index))

theorem listingCalls_succ (pager : Pager) (pages : List ObjectPage) (count : Nat) :
    listingCalls pager pages (count + 1) =
      listingCalls pager pages count ++ [.listing count (pager.query (tokenOf pages count))] := by
  simp [listingCalls, List.range_succ]

def askedFor (page : Nat) (dashboard : Dashboard) : Nat :=
  if dashboard.owesListing page then page else page + 1

variable {listing : Option String → Except StoreError ObjectPage} {pages : List ObjectPage}
  {failure? : Option StoreError}

theorem calls_of_work (here : AtPage replies pager page dashboard)
    (decided : replies.Decided listing) (trail : Trail listing none pages failure?) (event : Event) :
    listingCalls pager pages (askedFor page dashboard) ++
        (dashboard.step event).2.filter StoreCall.isListing =
      listingCalls pager pages (askedFor page (dashboard.step event).1) := by
  have coherent := here.coherent
  have lists := coherent.lists event
  generalize dashboard.step event = outcome at lists ⊢
  cases lists with
  | quiet after calls serial asking none =>
      have owes : after.owesListing page = dashboard.owesListing page := by
        rw [Bool.eq_iff_iff, owesListing_iff, owesListing_iff, serial]
        refine or_congr_right (exists_congr fun load => ?_)
        constructor
        · rintro ⟨member, own, stage⟩
          exact ⟨(asking load stage).mp member, own, stage⟩
        · rintro ⟨member, own, stage⟩
          exact ⟨(asking load stage).mpr member, own, stage⟩
      have noCall : calls.filter StoreCall.isListing = [] := by
        refine List.filter_eq_nil_iff.mpr fun call member => ?_
        cases call with
        | listing serial query => simpa [StoreCall.lists] using none serial _ member
        | _ => exact Bool.false_ne_true
      rw [noCall, List.append_nil, askedFor, askedFor, owes]
  | call load member asking =>
      obtain ⟨samePage, sameSerial, _⟩ := here.page_of_load member
      have before : dashboard.owesListing page = true := here.owes_iff.mpr ⟨load, member, asking⟩
      have after : (dashboard.setStage load.serial .listing).owesListing page = false := by
        rw [coherent.owesListing_call member]
        simp [sameSerial]
      have entered := coherent.entered load member
      rw [samePage] at entered
      have token := (here.accounted.trail_of_entrance decided trail entered).2.1
      rw [askedFor, askedFor, before, after, if_pos rfl, if_neg Bool.false_ne_true,
        listingCalls_succ, token, sameSerial, here.samePager]
      rfl
  | start page token? =>
      rw [askedFor, askedFor, owesListing_startLoad, List.filter_nil, List.append_nil]

theorem askedFor_next (here : AtPage replies pager page dashboard)
    (goesOn : dashboard.look last? = .goesOn) (token? : Option String) :
    askedFor (page + 1) (dashboard.startLoad (page + 1) token?) = askedFor page dashboard := by
  obtain ⟨opened, token, found, ready, _⟩ := here.of_goesOn goesOn
  have owed : dashboard.owesListing (page + 1) = true :=
    (owesListing_iff ..).mpr (.inl (Nat.le_of_eq here.serial))
  rw [askedFor, askedFor, owesListing_startLoad, owed,
    here.owes_of_settled found (by simp [ready]), if_pos rfl, if_neg Bool.false_ne_true]

/-! ## Runs -/

/-- Wherever a run brings a walk, it has not gone beyond the page it wants, and every listing that
it needs has been asked for once, in their order. -/
theorem run {events : List Event} (here : AtPage replies pager page dashboard)
    (decided : replies.Decided listing) (trail : Trail listing none pages failure?)
    (within : ∀ target ∈ last?, page ≤ target)
    (walked : dashboard.Walked replies last? events) :
    ∃ later, AtPage replies pager later (dashboard.run events) ∧
      (∀ target ∈ last?, later ≤ target) ∧
      listingCalls pager pages (askedFor page dashboard) ++
          (dashboard.calls events).filter StoreCall.isListing =
        listingCalls pager pages (askedFor later (dashboard.run events)) := by
  -- Over the events, at whatever page the walk is by then.
  induction events generalizing dashboard page with
  | nil => exact ⟨page, here, within, List.append_nil _⟩
  | cons event events ih =>
      have now : dashboard.Walks replies last? event := walked _ List.mem_cons_self
      have rest : (dashboard.step event).1.Walked replies last? events :=
        fun taken member => walked taken (List.mem_cons_of_mem _ member)
      rw [calls_cons, List.filter_append, ← List.append_assoc, here.calls_of_work decided trail]
      by_cases isCommand : ∃ command, event = .command command
      · obtain ⟨command, rfl⟩ := isCommand
        obtain ⟨rfl, goesOn⟩ := now
        obtain ⟨token?, moved, onward⟩ := here.next goesOn
        have stepped := step_of_ok moved
        have asked : askedFor page (dashboard.startLoad (page + 1) token?) =
            askedFor page dashboard := by
          rw [askedFor, askedFor, owesListing_startLoad]
        rw [run_cons, stepped]
        rw [stepped] at rest
        have later := ih onward (here.within_next goesOn within) rest
        rw [here.askedFor_next goesOn, ← asked] at later
        exact later
      · have noCommand (command : Command) (same : event = .command command) : False :=
          isCommand ⟨command, same⟩
        have admits : replies.Admits dashboard event := by
          cases event with
          | command command => exact (noCommand command rfl).elim
          | _ => exact now
        exact ih (here.work noCommand admits) within rest

end AtPage

/-! ## Ends -/

/-- Pages that are wanted up to the last one, of so many that there are. -/
def wanted (last? : Option Nat) (count : Nat) : Nat :=
  last?.elim count fun target => min (target + 1) count

/-- How a walk over a trail ends: with the number of pages that were loaded, unless the listing that
failed is wanted, too. -/
def walkEnd (location : String) (last? : Option Nat) (pages : List ObjectPage)
    (failure? : Option StoreError) : Except WalkError Nat :=
  match failure? with
  | none => .ok (wanted last? pages.length)
  | some error =>
      if last?.any (· < pages.length) then .ok (wanted last? pages.length)
      else .error (.page ("Error loading report from " ++ location ++ ": " ++ error.message))

theorem wanted_of_le {last? : Option Nat} {count : Nat}
    (beyond : ∀ target ∈ last?, count ≤ target + 1) : wanted last? count = count := by
  cases last? with
  | none => rfl
  | some target => exact Nat.min_eq_right (beyond target rfl)

theorem wanted_of_lt {target count : Nat} (inside : target < count) :
    wanted (some target) count = target + 1 :=
  Nat.min_eq_left inside

theorem lt_wanted {last? : Option Nat} {page count : Nat} (inside : page < count)
    (within : ∀ target ∈ last?, page ≤ target) : page < wanted last? count := by
  cases last? with
  | none => exact inside
  | some target => exact Nat.lt_min.mpr ⟨Nat.lt_succ_of_le (within target rfl), inside⟩

theorem walkEnd_of_reached (location : String) {last? : Option Nat} {pages : List ObjectPage}
    {failure? : Option StoreError}
    (reached : failure? = none ∨ ∃ target ∈ last?, target < pages.length) :
    walkEnd location last? pages failure? = .ok (wanted last? pages.length) := by
  cases failure? with
  | none => rfl
  | some error =>
      obtain ⟨target, rfl, inside⟩ := reached.resolve_left (Option.some_ne_none error)
      simp [walkEnd, inside]

theorem walkEnd_of_failed (location : String) {last? : Option Nat} {pages : List ObjectPage}
    (error : StoreError) (beyond : ∀ target ∈ last?, pages.length ≤ target) :
    walkEnd location last? pages (some error) =
      .error (.page ("Error loading report from " ++ location ++ ": " ++ error.message)) := by
  cases last? with
  | none => rfl
  | some target => simp [walkEnd, beyond target rfl]

def Dashboard.IsReady (dashboard : Dashboard) (index : Nat) : Prop :=
  ∃ opened next?, dashboard.page? index = some opened ∧ opened.status = .ready next?

namespace AtPage

open Dashboard

variable {replies : Replies} {listing : Option String → Except StoreError ObjectPage}
  {pager : Pager} {page : Nat} {dashboard : Dashboard} {last? : Option Nat}
  {pages : List ObjectPage} {failure? : Option StoreError}

theorem isReady_iff (here : AtPage replies pager page dashboard) (index : Nat) :
    dashboard.IsReady index ↔ index < page ∨ index = page ∧ dashboard.IsReady page := by
  constructor
  · intro ready
    obtain ⟨opened, next?, found, status⟩ := ready
    have inside := here.coherent.lt_of_page found
    rw [here.length] at inside
    rcases Nat.lt_succ_iff_lt_or_eq.mp inside with before | rfl
    · exact .inl before
    · exact .inr ⟨rfl, opened, next?, found, status⟩
  · rintro (before | ⟨rfl, ready⟩)
    · have behind : index + 1 < dashboard.pages.length := by
        rw [here.length]
        omega
      obtain ⟨opened, found⟩ := here.coherent.page_of_lt (Nat.lt_of_succ_lt behind)
      obtain ⟨token, status⟩ := here.coherent.chained index opened found behind
      exact ⟨opened, some token, found, status⟩
    · exact ready

structure Done (location : String) (last? : Option Nat) (pages : List ObjectPage)
    (failure? : Option StoreError) (result : Except WalkError Nat) (dashboard : Dashboard) : Prop where
  result_eq : result = walkEnd location last? pages failure?
  ready : ∀ index, dashboard.IsReady index ↔ index < wanted last? pages.length
  opened : dashboard.pages.length = wanted last? (pages.length + failure?.toList.length)

theorem done (here : AtPage replies pager page dashboard)
    (decided : replies.Decided listing) (trail : Trail listing none pages failure?)
    (within : ∀ target ∈ last?, page ≤ target)
    {result : Except WalkError Nat} (ends : dashboard.look last? = .ends result) :
    Done dashboard.location last? pages failure? result dashboard ∧
      dashboard.owesListing page = false := by
  obtain ⟨opened, found⟩ := here.exists_page
  rw [here.look_eq found] at ends
  -- A walk that ends stands at a page that is settled: refused, wanted last, or without a token.
  cases status : opened.status with
  | loading => simp [status] at ends
  | failed message =>
      obtain ⟨rfl, error, rfl, text⟩ := here.accounted.failed_on_trail decided trail found status
      have notReady : ¬ dashboard.IsReady pages.length := by
        rintro ⟨other, next?, foundToo, ready⟩
        obtain rfl := Option.some.inj (found.symm.trans foundToo)
        rw [status] at ready
        cases ready
      refine ⟨⟨?_, fun index => ?_, ?_⟩, here.owes_of_settled found (by simp [status])⟩
      · simp only [status, Look.ends.injEq] at ends
        rw [← ends, text, walkEnd_of_failed _ error within]
        rfl
      · rw [here.isReady_iff, wanted_of_le fun target member => Nat.le_succ_of_le (within target member)]
        simp [notReady]
      · rw [here.length]
        exact (wanted_of_le fun target member => Nat.succ_le_succ (within target member)).symm
  | ready next? =>
      obtain ⟨listed, inside, next, _⟩ := here.accounted.ready_on_trail decided trail found status
      have lt : page < pages.length := (List.getElem?_eq_some_iff.mp inside).1
      have isReady : dashboard.IsReady page := ⟨opened, next?, found, status⟩
      simp only [status] at ends
      split at ends
      · rename_i stops
        obtain rfl : Except.ok (page + 1) = result := Look.ends.inj ends
        have count : wanted last? pages.length = page + 1 ∧
            wanted last? (pages.length + failure?.toList.length) = page + 1 ∧
            (failure? = none ∨ ∃ target ∈ last?, target < pages.length) := by
          rcases stops with rfl | none
          · exact ⟨wanted_of_lt lt, wanted_of_lt (by omega), .inr ⟨page, rfl, lt⟩⟩
          · have ends := (trail.next?_eq_none_iff inside).mp
              (next.symm.trans (Option.isNone_iff_eq_none.mp none))
            obtain ⟨whole, rfl⟩ := ends
            rw [← whole]
            have all : wanted last? (page + 1) = page + 1 :=
              wanted_of_le fun target member => Nat.succ_le_succ (within target member)
            exact ⟨all, all, .inl rfl⟩
        refine ⟨⟨?_, fun index => ?_, ?_⟩, here.owes_of_settled found (by simp [status])⟩
        · rw [walkEnd_of_reached _ count.2.2, count.1]
        · rw [here.isReady_iff, count.1]
          constructor
          · rintro (before | ⟨rfl, _⟩) <;> omega
          · intro before
            rcases Nat.lt_succ_iff_lt_or_eq.mp before with before | rfl
            · exact .inl before
            · exact .inr ⟨rfl, isReady⟩
        · rw [here.length, count.2.1]
      · cases ends

end AtPage

namespace Dashboard

theorem location_run (dashboard : Dashboard) (events : List Event) :
    (dashboard.run events).location = dashboard.location :=
  run_keeps (fun later => later.location = dashboard.location)
    (fun _ _ _ same change => (location_of_change change).trans same) dashboard rfl events

/-- What a run has done when its walk ends so: the listings of the pages that it has opened have
been asked for in their order, once each. -/
structure Completes (last? : Option Nat) (pages : List ObjectPage) (failure? : Option StoreError)
    (result : Except WalkError Nat) (start : Dashboard) (events : List Event) : Prop
    extends AtPage.Done start.location last? pages failure? result (start.run events) where
  calls : (start.calls events).filter StoreCall.isListing =
    AtPage.listingCalls start.pager pages (start.run events).pages.length

section Runs

variable {replies : Replies} {pager : Pager} {location : String} {probing : Bool}
  {events : List Event} {last? : Option Nat}
  (walked : (mount pager location probing).Walked replies last? events)
include walked

theorem accounted_of_walked : replies.Accounted ((mount pager location probing).run events) := by
  refine run_keeps_of_steps replies.Accounted ?_ (.mounted ..)
  intro before event taken accounted
  refine accounted.change (step_change before event) ?_
  have walks := walked _ taken
  cases event with
  | command command => exact trivial
  | _ => exact walks

/-- Whatever the order in which its work is done, a walk that ends has loaded the pages that it
wants, up to a failure. -/
theorem completes_of_walked {listing : Option String → Except StoreError ObjectPage}
    (decided : replies.Decided listing) {pages : List ObjectPage} {failure? : Option StoreError}
    (trail : Trail listing none pages failure?) {result : Except WalkError Nat}
    (ends : ((mount pager location probing).run events).look last? = .ends result) :
    (mount pager location probing).Completes last? pages failure? result events := by
  obtain ⟨page, here, within, calls⟩ := (AtPage.mounting replies pager location probing).run decided
    trail (fun _ _ => Nat.zero_le _) walked
  obtain ⟨done, asked⟩ := here.done decided trail within ends
  rw [location_run] at done
  refine ⟨done, ?_⟩
  rw [AtPage.askedFor, AtPage.askedFor, asked, if_neg Bool.false_ne_true, ← here.length] at calls
  exact calls

end Runs

end Dashboard

end CrawlBoard
