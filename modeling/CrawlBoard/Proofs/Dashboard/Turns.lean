import CrawlBoard.Proofs.Dashboard.Walking
/-!
The turns of a load: its steps, each with answers to the calls it makes. Three turns finish a load;
from any state of a walk they bring it to its end.
-/

namespace CrawlBoard

def Event.isFree : Event → Bool
  | .command _ | .takeListing _ _ | .takeFetch _ _ _ => false
  | _ => true

/-- The answers to a call. The listing of a page and the fetch of an entry are answered as the store
does; what the counting is told is left open. -/
inductive Answers (replies : Replies) (pager : Pager) : StoreCall → Event → Prop
  | count (query : ListQuery) (answer : Except StoreError ObjectPage) :
      Answers replies pager (.count query) (.takeCount answer)
  | listing (serial : Nat) (query : ListQuery) (answer : Except StoreError ObjectPage)
      (given : ∀ token?, query = pager.query token? → replies.listing serial token? answer) :
      Answers replies pager (.listing serial query) (.takeListing serial answer)
  | fetch (serial position : Nat) (key : String) (answer : Except StoreError StoredObject)
      (given : ∀ entry : ObjectEntry, entry.key = key → replies.fetch serial entry answer) :
      Answers replies pager (.fetch serial position key) (.takeFetch serial position answer)

namespace Dashboard

def Worked (replies : Replies) (dashboard : Dashboard) (events : List Event) : Prop :=
  ∀ taken ∈ dashboard.steps events, (∀ command, taken.2 ≠ .command command) ∧
    replies.Admits taken.1 taken.2

variable {replies : Replies} {pager : Pager} {page : Nat} {dashboard : Dashboard}

namespace Worked

theorem nil : dashboard.Worked replies [] := fun _ member => absurd member List.not_mem_nil

theorem cons {event : Event} {events : List Event} (noCommand : ∀ command, event ≠ .command command)
    (admits : replies.Admits dashboard event)
    (rest : (dashboard.step event).1.Worked replies events) :
    dashboard.Worked replies (event :: events) :=
  List.forall_mem_cons.mpr ⟨⟨noCommand, admits⟩, rest⟩

theorem append {earlier later : List Event} (first : dashboard.Worked replies earlier)
    (second : (dashboard.run earlier).Worked replies later) :
    dashboard.Worked replies (earlier ++ later) := by
  rw [Worked, steps_append]
  exact List.forall_mem_append.mpr ⟨first, second⟩

theorem of_free {events : List Event} (free : ∀ event ∈ events, event.isFree = true) :
    dashboard.Worked replies events := by
  induction events generalizing dashboard with
  | nil => exact nil
  | cons event events ih =>
      have rest := @ih (dashboard.step event).1 fun next member =>
        free next (List.mem_cons_of_mem _ member)
      have now := free event List.mem_cons_self
      cases event with
      | command command => cases now
      | takeListing serial answer => cases now
      | takeFetch serial position answer => cases now
      | _ => exact cons (fun _ => Event.noConfusion) trivial rest

theorem walked {events : List Event} (worked : dashboard.Worked replies events)
    (last? : Option Nat) : dashboard.Walked replies last? events := by
  rintro ⟨before, event⟩ taken
  obtain ⟨noCommand, admits⟩ := worked _ taken
  cases event with
  | command command => exact absurd rfl (noCommand command)
  | _ => exact admits

theorem atPage {events : List Event} (worked : dashboard.Worked replies events)
    (here : AtPage replies pager page dashboard) :
    AtPage replies pager page (dashboard.run events) := by
  apply run_keeps_of_steps (AtPage replies pager page) _ here
  intro before event taken still
  obtain ⟨noCommand, admits⟩ := worked _ taken
  exact still.work noCommand admits

end Worked

/-! ## Turns -/

variable {load : Load} {events : List Event}

theorem step_takeListing (found : dashboard.load? load.serial = some load)
    (stage : load.stage = .listing) (answer : Except StoreError ObjectPage) :
    (dashboard.step (.takeListing load.serial answer)).1 =
      dashboard.setStage load.serial (.ofAnswer answer) := by
  cases answer <;> simp [step, found, takeListing, stage, LoadStage.ofAnswer]

theorem listed_turn (found : dashboard.load? load.serial = some load)
    (stage : load.stage = .listing) {answer : Except StoreError ObjectPage}
    (given : replies.listing load.serial load.token? answer) :
    dashboard.Worked replies [.takeListing load.serial answer] ∧
      (dashboard.run [.takeListing load.serial answer]).load? load.serial =
        some { load with stage := .ofAnswer answer } := by
  constructor
  · refine Worked.cons (fun _ => Event.noConfusion) ?_ .nil
    intro other foundToo _
    obtain rfl := Option.some.inj (found.symm.trans foundToo)
    exact given
  · rw [run_cons, step_takeListing found stage]
    exact load?_setStage dashboard load _ found

theorem step_ask (found : dashboard.load? load.serial = some load) (stage : load.stage = .asking) :
    dashboard.step (.askListing load.serial) = (dashboard.setStage load.serial .listing,
      [.listing load.serial (dashboard.pager.query load.token?)]) := by
  simp [step, found, askListing, stage]

theorem ask_turn (found : dashboard.load? load.serial = some load) (stage : load.stage = .asking)
    (answers : List.Forall₂ (Answers replies dashboard.pager)
      (dashboard.step (.askListing load.serial)).2 events) :
    dashboard.Worked replies (.askListing load.serial :: events) ∧ ∃ answer,
      (dashboard.run (.askListing load.serial :: events)).load? load.serial =
        some { load with stage := .ofAnswer answer } := by
  have stepped := step_ask found stage
  rw [stepped] at answers
  obtain ⟨event, none, answered, rest, rfl⟩ := List.forall₂_cons_left_iff.mp answers
  obtain rfl := List.forall₂_nil_left_iff.mp rest
  cases answered with
  | listing _ _ answer given =>
      have asked : (dashboard.setStage load.serial .listing).load?
          (Load.mk load.serial load.page load.token? .listing).serial = some _ :=
        load?_setStage dashboard load .listing found
      have turn := listed_turn asked rfl (given load.token? rfl)
      rw [run_cons, stepped]
      refine ⟨.cons (fun _ => Event.noConfusion) trivial ?_, answer, turn.2⟩
      rw [stepped]
      exact turn.1

theorem fetched_turn {serial position : Nat} {listed : ListedPage} {waiting : List Nat}
    (found : dashboard.load? serial = some load)
    (stage : load.stage = .fetching ⟨listed, position :: waiting⟩)
    {entry : ObjectEntry} (present : listed.entries[position]? = some entry)
    {answer : Except StoreError StoredObject} (given : replies.fetch serial entry answer) :
    dashboard.Worked replies [.takeFetch serial position answer] ∧
      (dashboard.run [.takeFetch serial position answer]).load? serial =
        some { load with stage := .fetching ⟨listed, waiting⟩ } := by
  obtain ⟨-, rfl⟩ := load_of_load? dashboard serial load found
  constructor
  · refine Worked.cons (fun _ => Event.noConfusion) ?_ .nil
    intro other fetching found' foundToo stageToo _ inside
    obtain rfl := Option.some.inj (found.symm.trans foundToo)
    obtain rfl := LoadStage.fetching.inj (stage.symm.trans stageToo)
    obtain rfl := Option.some.inj (present.symm.trans inside)
    exact given
  · have left : (PageLoad.take dashboard.unmounted position answer
        ⟨listed, position :: waiting⟩ .empty).1 = ⟨listed, waiting⟩ := by
      simp [PageLoad.take, present]
    have stepped : (dashboard.step (.takeFetch load.serial position answer)).1 =
        dashboard.fetched load ⟨listed, position :: waiting⟩ position answer := by
      simp [step, found, takeFetch, stage, fetched]
    rw [run_cons, stepped, fetched, left]
    exact load?_setStage (dashboard.updatePage load _) load _ found

theorem fetch_turn {serial : Nat} {listed : ListedPage} {waiting : List Nat}
    (found : dashboard.load? serial = some load) (stage : load.stage = .fetching ⟨listed, waiting⟩)
    (answers : List.Forall₂ (fun position event => ∃ entry answer,
      listed.entries[position]? = some entry ∧ replies.fetch serial entry answer ∧
        event = .takeFetch serial position answer) waiting events) :
    dashboard.Worked replies events ∧ (dashboard.run events).load? serial =
      some { load with stage := .fetching ⟨listed, []⟩ } := by
  induction answers generalizing dashboard load with
  | nil =>
      rw [← stage]
      exact ⟨.nil, found⟩
  | cons answered rest ih =>
      obtain ⟨entry, answer, present, given, rfl⟩ := answered
      obtain ⟨worked, taken⟩ := fetched_turn found stage present given
      obtain ⟨workedOn, done⟩ := ih taken rfl
      exact ⟨worked.append workedOn, done⟩

theorem place_turn (found : dashboard.load? load.serial = some load) {listed : ListedPage}
    (stage : load.stage = .listed listed) (mounted : dashboard.unmounted = false)
    (answers : List.Forall₂ (Answers replies pager) (dashboard.step (.place load.serial)).2 events) :
    dashboard.Worked replies (.place load.serial :: events) ∧
      (dashboard.run (.place load.serial :: events)).load? load.serial =
        some { load with stage := .fetching ⟨listed, []⟩ } := by
  have stepped : dashboard.step (.place load.serial) =
      (dashboard.placed load listed, fetchCalls load.serial listed) := by
    simp [step, found, place, stage, mounted, placed]
  have placed : (dashboard.placed load listed).load? load.serial =
      some { load with stage := .fetching (.start listed) } :=
    load?_setStage (dashboard.updatePage load _) load _ found
  have positions : (PageLoad.start listed).waiting = listed.keys.zipIdx.map Prod.snd := by
    rw [List.zipIdx_map_snd, ListedPage.keys, List.length_map, PageLoad.start,
      List.range_eq_range']
  rw [stepped, fetchCalls, List.forall₂_map_left_iff] at answers
  have numbered : ∀ pair ∈ listed.keys.zipIdx, listed.keys[pair.2]? = some pair.1 :=
    fun _ member => List.mk_mem_zipIdx_iff_getElem?.mp member
  -- The calls are numbered by their keys, the answers by the entries of the listing.
  have inOrder : List.Forall₂ (fun position event => ∃ entry answer,
      listed.entries[position]? = some entry ∧ replies.fetch load.serial entry answer ∧
        event = .takeFetch load.serial position answer) (PageLoad.start listed).waiting events := by
    rw [positions, List.forall₂_map_left_iff]
    refine ((List.forall₂_and_left _ _).mpr ⟨numbered, answers⟩).imp ?_
    rintro ⟨key, position⟩ event ⟨inside, answered⟩
    rw [ListedPage.keys, List.getElem?_map] at inside
    obtain ⟨entry, present, same⟩ := Option.map_eq_some_iff.mp inside
    cases answered with
    | fetch _ _ _ answer given => exact ⟨entry, answer, present, given entry same, rfl⟩
  obtain ⟨worked, done⟩ := fetch_turn placed rfl inOrder
  rw [run_cons, stepped]
  refine ⟨.cons (fun _ => Event.noConfusion) trivial ?_, done⟩
  rw [stepped]
  exact worked

def LoadOver (stage : LoadStage) : Prop :=
  (∃ error, stage = .refused error) ∨ ∃ listed, stage = .fetching ⟨listed, []⟩

theorem publish_turn (found : dashboard.load? load.serial = some load)
    (idle : LoadOver load.stage) (mounted : dashboard.unmounted = false) :
    (dashboard.step (.publish load.serial)).2 = [] ∧
      (dashboard.run [.publish load.serial]).load? load.serial = none := by
  obtain ⟨status, verdict⟩ : ∃ status, dashboard.verdict? load = some status := by
    rcases idle with ⟨error, stage⟩ | ⟨listed, stage⟩
    · exact ⟨_, by rw [verdict?, stage]⟩
    · exact ⟨.ready listed.next?, by simp [verdict?, stage, PageLoad.finished]⟩
  have stepped : dashboard.step (.publish load.serial) =
      (dashboard.published load status, []) := by
    simp [step, found, publish, verdict, mounted, published]
  rw [run_cons, stepped]
  refine ⟨rfl, List.find?_eq_none.mpr fun other member => ?_⟩
  have different := ((mem_dropLoad ..).mp member).2
  simpa using different

/-! ## From any state of a walk -/

def WaitsInside (dashboard : Dashboard) : Prop :=
  ∀ load ∈ dashboard.loads, ∀ fetching, load.stage = .fetching fetching →
    ∀ position ∈ fetching.waiting, position < fetching.listed.entries.length

theorem waiting_take_subset (load : PageLoad) (cancelled : Bool) (position : Nat)
    (answer : Except StoreError StoredObject) (items : PageItems) :
    (load.take cancelled position answer items).1.waiting ⊆ load.waiting := by
  unfold PageLoad.take
  split
  · exact List.erase_subset
  · exact List.Subset.refl _

theorem WaitsInside.setStage (waits : dashboard.WaitsInside) (serial : Nat) {stage : LoadStage}
    (fits : ∀ fetching, stage = .fetching fetching →
      ∀ position ∈ fetching.waiting, position < fetching.listed.entries.length) :
    (dashboard.setStage serial stage).WaitsInside := by
  intro load member
  rcases (mem_setStage ..).mp member with ⟨present, _⟩ | ⟨old, _, _, rfl⟩
  · exact waits load present
  · exact fits

theorem WaitsInside.dropLoad (waits : dashboard.WaitsInside) (serial : Nat) :
    (dashboard.dropLoad serial).WaitsInside :=
  fun load member => waits load ((mem_dropLoad ..).mp member).1

theorem WaitsInside.change {after : Dashboard} {event : Event} (waits : dashboard.WaitsInside)
    (change : Change dashboard event after) : after.WaitsInside := by
  cases change with
  | start command page token? =>
      intro load member fetching stage
      rcases List.mem_append.mp member with old | new
      · exact waits load old fetching stage
      · rw [List.mem_singleton.mp new] at stage
        cases stage
  | ask load found asking => exact waits.setStage load.serial nofun
  | list load answer found listing =>
      apply waits.setStage load.serial
      cases answer <;> exact nofun
  | place load listed found stage mounted =>
      apply @WaitsInside.setStage (dashboard.updatePage load _) waits load.serial
      rintro fetching ⟨rfl⟩ position member
      exact List.mem_range.mp member
  | fetch load fetching position answer found stage =>
      apply @WaitsInside.setStage (dashboard.updatePage load _) waits load.serial
      rintro later ⟨rfl⟩ other member
      rw [Replies.listed_take]
      exact waits load (mem_of_load? found) fetching stage other (waiting_take_subset _ _ _ _ _ member)
  | publish load status found verdict mounted => exact waits.dropLoad load.serial
  | abandon event load found unmounted => exact waits.dropLoad load.serial
  | _ => exact waits

theorem waitsInside_run (pager : Pager) (location : String) (probing : Bool) (events : List Event) :
    ((mount pager location probing).run events).WaitsInside := by
  apply run_keeps WaitsInside (fun _ _ _ waits change => waits.change change)
  intro load member fetching stage
  rw [List.mem_singleton.mp member] at stage
  cases stage

/-- Work alone can bring the load of a number to its end. -/
def Finishes (replies : Replies) (serial : Nat) (dashboard : Dashboard) : Prop :=
  ∃ events, dashboard.Worked replies events ∧ (dashboard.run events).load? serial = none

namespace Finishes

variable {serial : Nat}

theorem after {earlier : List Event} (worked : dashboard.Worked replies earlier)
    (later : (dashboard.run earlier).Finishes replies serial) :
    dashboard.Finishes replies serial := by
  obtain ⟨events, workedToo, ended⟩ := later
  refine ⟨earlier ++ events, worked.append workedToo, ?_⟩
  rw [run_append]
  exact ended

theorem of_over (here : AtPage replies pager page dashboard)
    (found : dashboard.load? serial = some load) (idle : LoadOver load.stage) :
    dashboard.Finishes replies serial := by
  obtain ⟨-, rfl⟩ := load_of_load? dashboard serial load found
  exact ⟨[.publish load.serial], .of_free (by simp [Event.isFree]),
    (publish_turn found idle here.mounted).2⟩

end Finishes

section Finishing

variable {listing : Option String → Except StoreError ObjectPage} (decided : replies.Decided listing)
include decided

theorem exists_answers (pager : Pager) (calls : List StoreCall) :
    ∃ events, List.Forall₂ (Answers replies pager) calls events := by
  induction calls with
  | nil => exact ⟨[], .nil⟩
  | cons call calls ih =>
      obtain ⟨events, answers⟩ := ih
      cases call with
      | count query => exact ⟨_, .cons (.count query (.ok {})) answers⟩
      | fetch serial position key =>
          obtain ⟨answer, given⟩ := decided.fetch serial key
          exact ⟨_, .cons (.fetch serial position key answer given) answers⟩
      | listing serial query =>
          refine ⟨_, .cons (.listing serial query (listing query.token?) ?_) answers⟩
          rintro token? rfl
          exact (decided.listing_iff ..).mpr rfl

namespace Finishes

variable {serial : Nat} (here : AtPage replies pager page dashboard)
  (found : dashboard.load? serial = some load)
include here found

theorem of_fetching {listed : ListedPage} {waiting : List Nat}
    (stage : load.stage = .fetching ⟨listed, waiting⟩)
    (inside : ∀ position ∈ waiting, position < listed.entries.length) :
    dashboard.Finishes replies serial := by
  induction waiting generalizing dashboard load with
  | nil => exact of_over here found (.inr ⟨listed, stage⟩)
  | cons position waiting ih =>
      obtain ⟨entry, present⟩ : ∃ entry, listed.entries[position]? = some entry :=
        ⟨_, List.getElem?_eq_getElem (inside position List.mem_cons_self)⟩
      obtain ⟨answer, given⟩ := decided.fetch serial entry.key
      obtain ⟨worked, taken⟩ := fetched_turn found stage present (given _ rfl)
      exact after worked (ih (worked.atPage here) taken rfl fun other member =>
        inside other (List.mem_cons_of_mem _ member))

theorem of_listed {listed : ListedPage} (stage : load.stage = .listed listed) :
    dashboard.Finishes replies serial := by
  obtain ⟨-, rfl⟩ := load_of_load? dashboard serial load found
  obtain ⟨events, answers⟩ := exists_answers decided pager (dashboard.step (.place load.serial)).2
  obtain ⟨worked, placed⟩ := place_turn found stage here.mounted answers
  exact after worked (of_over (worked.atPage here) placed (.inr ⟨listed, rfl⟩))

theorem of_answered {answer : Except StoreError ObjectPage} (stage : load.stage = .ofAnswer answer) :
    dashboard.Finishes replies serial := by
  cases answer with
  | ok page => exact of_listed decided here found stage
  | error error => exact of_over here found (.inl ⟨error, stage⟩)

theorem of_listing (stage : load.stage = .listing) : dashboard.Finishes replies serial := by
  obtain ⟨-, rfl⟩ := load_of_load? dashboard serial load found
  obtain ⟨worked, answered⟩ := listed_turn found stage ((decided.listing_iff ..).mpr rfl)
  exact after worked (of_answered decided (worked.atPage here) answered rfl)

theorem of_asking (stage : load.stage = .asking) : dashboard.Finishes replies serial := by
  obtain ⟨-, rfl⟩ := load_of_load? dashboard serial load found
  obtain ⟨events, answers⟩ := exists_answers decided dashboard.pager
    (dashboard.step (.askListing load.serial)).2
  obtain ⟨worked, answer, answered⟩ := ask_turn found stage answers
  exact after worked (of_answered decided (worked.atPage here) answered rfl)

end Finishes

end Finishing

end Dashboard

namespace AtPage

open Dashboard

variable {replies : Replies} {listing : Option String → Except StoreError ObjectPage}
  {pager : Pager} {page : Nat} {dashboard : Dashboard} {last? : Option Nat}

theorem finishes (here : AtPage replies pager page dashboard) (decided : replies.Decided listing)
    (waits : dashboard.WaitsInside) : dashboard.Finishes replies page := by
  cases found : dashboard.load? page with
  | none => exact ⟨[], .nil, found⟩
  | some load =>
      obtain ⟨member, rfl⟩ := load_of_load? dashboard page load found
      cases stage : load.stage with
      | asking => exact .of_asking decided here found stage
      | listing => exact .of_listing decided here found stage
      | listed listed => exact .of_listed decided here found stage
      | refused error => exact .of_over here found (.inl ⟨error, stage⟩)
      | fetching fetching =>
          exact .of_fetching decided here found stage (waits load member fetching stage)

theorem settled (here : AtPage replies pager page dashboard)
    (ended : dashboard.load? page = none) {opened : OpenPage}
    (found : dashboard.page? page = some opened) : opened.status ≠ .loading := by
  intro loading
  obtain ⟨load, member, -⟩ := here.coherent.awaited here.mounted page opened found loading
  have present := here.coherent.load?_of_mem member
  rw [(here.page_of_load member).2.1, ended] at present
  cases present

theorem look_of_ended (here : AtPage replies pager page dashboard)
    (ended : dashboard.load? page = none) : dashboard.look last? ≠ .waits := by
  obtain ⟨opened, found⟩ := here.exists_page
  have settled := here.settled ended found
  rw [here.look_eq found]
  cases status : opened.status with
  | loading => exact absurd status settled
  | failed message => exact nofun
  | ready next? =>
      dsimp only
      split <;> exact nofun

variable {pages : List ObjectPage} {failure? : Option StoreError}

theorem lt_total (here : AtPage replies pager page dashboard) (decided : replies.Decided listing)
    (trail : Trail listing none pages failure?) :
    page < pages.length + failure?.toList.length := by
  have entrance : ∃ token?, dashboard.entrance? page = some token? := by
    cases page with
    | zero => exact ⟨none, rfl⟩
    | succ before =>
        have behind : before + 1 < dashboard.pages.length := by
          rw [here.length]
          omega
        obtain ⟨opened, found⟩ := here.coherent.page_of_lt (Nat.lt_of_succ_lt behind)
        obtain ⟨token, ready⟩ := here.coherent.chained before opened found behind
        exact ⟨some token, (entrance?_succ ..).mpr ⟨opened, token, found, ready, rfl⟩⟩
  obtain ⟨token?, entrance⟩ := entrance
  obtain ⟨rest, -, within⟩ := here.accounted.trail_of_entrance decided trail entrance
  cases failure? with
  | some error => exact Nat.lt_succ_of_le within
  | none =>
      by_contra beyond
      have none : pages.drop page = [] := List.drop_eq_nil_iff.mpr (by simpa using beyond)
      rw [none] at rest
      cases rest

/-- From wherever a walk is, it can come to its end. -/
theorem exists_end (here : AtPage replies pager page dashboard) (decided : replies.Decided listing)
    (waits : dashboard.WaitsInside) (trail : Trail listing none pages failure?) {rest : Nat}
    (enough : pages.length + failure?.toList.length ≤ page + rest) :
    ∃ events, dashboard.Walked replies last? events ∧
      ∃ result, (dashboard.run events).look last? = .ends result := by
  -- Over the listings that the walk has not come to yet.
  induction rest generalizing dashboard page with
  | zero => exact absurd (here.lt_total decided trail) (Nat.not_lt.mpr enough)
  | succ rest ih =>
      obtain ⟨work, worked, ended⟩ := here.finishes decided waits
      have there := worked.atPage here
      cases look : (dashboard.run work).look last? with
      | waits => exact absurd look (there.look_of_ended ended)
      | ends result => exact ⟨work, worked.walked last?, result, look⟩
      | goesOn =>
          obtain ⟨token?, moved, onward⟩ := there.next look
          have waitsThere : (dashboard.run work).WaitsInside :=
            run_keeps WaitsInside (fun _ _ _ waits change => waits.change change) _ waits work
          have stepped := step_of_ok moved
          obtain ⟨events, walked, result, ends⟩ := ih onward
            (waitsThere.change (perform_change _ _ .next moved)) (by omega)
          refine ⟨work ++ .command .next :: events, ?_, result, ?_⟩
          · rw [Walked, steps_append]
            refine List.forall_mem_append.mpr ⟨worked.walked last?, ?_⟩
            refine List.forall_mem_cons.mpr ⟨⟨rfl, look⟩, ?_⟩
            rw [stepped]
            exact walked
          · rw [run_append, run_cons, stepped]
            exact ends

end AtPage

/-- A walk is never stuck: however far its work has come, the rest of it brings the walk to its end. -/
theorem Dashboard.end_of_walked {replies : Replies}
    {listing : Option String → Except StoreError ObjectPage} (decided : replies.Decided listing)
    {pager : Pager} {pages : List ObjectPage} {failure? : Option StoreError} {last? : Option Nat}
    (trail : Trail listing none pages failure?) (location : String) (probing : Bool)
    {events : List Event} (walked : (mount pager location probing).Walked replies last? events) :
    ∃ more, (mount pager location probing).Walked replies last? (events ++ more) ∧
      ∃ result, ((mount pager location probing).run (events ++ more)).look last? = .ends result := by
  obtain ⟨page, here, -, -⟩ := (AtPage.mounting replies pager location probing).run decided trail
    (fun _ _ => Nat.zero_le _) walked
  obtain ⟨more, walkedOn, result, ends⟩ := @AtPage.exists_end _ _ _ _ _ last? _ _ here decided
    (waitsInside_run pager location probing events) trail _ (Nat.le_add_left _ page)
  refine ⟨more, ?_, result, ?_⟩
  · rw [Walked, steps_append]
    exact List.forall_mem_append.mpr ⟨walked, walkedOn⟩
  · rw [run_append]
    exact ends

end CrawlBoard
