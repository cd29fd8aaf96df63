import CrawlBoard.Proofs.Dashboard.SessionTotal
import CrawlBoard.Proofs.Exports
import CrawlBoard.Proofs.FetchedItems
import CrawlBoard.Proofs.PrintedText

namespace CrawlBoard

/-- The items are those of a listing, each report key once, and each holds what the store has answered
to a fetch of its key. -/
structure HoldsAnswers (replies : Replies) (listed : ObjectPage) (items : List Item) : Prop where
  keys : items.map (·.key) =
    PageItems.distinct ((listed.entries.filter ObjectEntry.isReport).map (·.key))
  holds : ∀ item ∈ items, ∃ entry ∈ listed.entries, entry.key = item.key ∧
    ∃ serial answer, replies.fetch serial entry answer ∧ Pager.Holds entry answer item.status

/-- What a run leaves behind that has been asked for a page, counted from 0, of a store with these
pages, in which so many reports have been counted. -/
structure Prints (painted : Bool) (replies : Replies) (pager : Pager) (location : String)
    (pages : List ObjectPage) (failure? : Option StoreError) (reports? : Option Nat) (target : Nat)
    (result : RunResult) : Prop where
  succeeds_iff : result.code = 0 ↔ target < pages.length
  present : ∀ listed, pages[target]? = some listed → ∃ items, HoldsAnswers replies listed items ∧
    Says painted result.output (printedPage pager.pageSize target reports? items) ∧
    result = { output := result.output }
  missing : pages.length ≤ target → result = { code := 1, errors := "Error: " ++ (match failure? with
    | none => "Page " ++ toString (target + 1) ++ " does not exist, only " ++ toString pages.length
        ++ " page(s) of reports"
    | some error => "Error loading report from " ++ location ++ ": " ++ error.message) ++ "\n" }

namespace Session

variable {σ : Type} {session after : Session σ} {target patience loaded : Nat}
  (settled : after.dashboard.total ≠ .counting)
include settled

theorem print_of_walked (painted : Bool)
    (walked : session.walk (some target) patience patience = (.ok loaded, after))
    (present : target < loaded) {snapshot : Snapshot}
    (shown : after.dashboard.snapshot target = some snapshot) :
    session.print painted patience target false =
      { output := renderLines painted (pageLines after.dashboard.pageTotal? snapshot
        ++ totalLines after.dashboard.total) } := by
  have same : after.dashboard.unmount.snapshot target = some snapshot := shown
  rw [print, if_neg Bool.false_ne_true, walked]
  simp [awaitTotal_of_settled settled, Nat.not_le.mpr present, same]
  rfl

theorem print_of_short (painted : Bool)
    (walked : session.walk (some target) patience patience = (.ok loaded, after))
    (short : loaded ≤ target) :
    session.print painted patience target false = .failed (noSuchPage target loaded) "" := by
  rw [print, if_neg Bool.false_ne_true, walked]
  simp [awaitTotal_of_settled settled, short]

theorem print_of_error (painted : Bool) {error : WalkError}
    (walked : session.walk (some target) patience patience = (.error error, after)) :
    session.print painted patience target false = .failed error.message "" := by
  rw [print, if_neg Bool.false_ne_true, walked]
  simp [awaitTotal_of_settled settled]

end Session

section Trails

open Dashboard

variable {replies : Replies} {listing : Option String → Except StoreError ObjectPage}
  {pager : Pager} {pages : List ObjectPage} {failure? : Option StoreError}

theorem Prints.of_missing {painted : Bool} {location : String} {reports? : Option Nat} {target : Nat}
    {result : RunResult} (beyond : pages.length ≤ target)
    (failed : result = .failed (match failure? with
      | none => noSuchPage target pages.length
      | some error => "Error loading report from " ++ location ++ ": " ++ error.message) "") :
    Prints painted replies pager location pages failure? reports? target result where
  succeeds_iff := by
    rw [failed]
    exact iff_of_false Nat.one_ne_zero (Nat.not_lt.mpr beyond)
  present listed found := absurd (List.getElem?_eq_some_iff.mp found).1 (Nat.not_lt.mpr beyond)
  missing _ := failed

/-- Once no fetch is awaited any more, an item holds the answer to one of its key's fetches. -/
theorem Replies.Recorded.holdsAnswers {serial : Nat} {listed : ObjectPage} {items : PageItems}
    (recorded : replies.Recorded serial false ⟨.ofListing listed, []⟩ items) :
    HoldsAnswers replies listed items.items where
  keys := recorded.keys
  holds item member := by
    obtain ⟨outcomes, rfl, answered, covered⟩ := recorded
    rw [PageItems.items_resolveAll_ofKeys] at member
    obtain ⟨key, present, rfl⟩ := List.mem_map.mp member
    obtain ⟨entry, inside, rfl⟩ := List.mem_map.mp ((PageItems.mem_distinct ..).mp present)
    obtain ⟨position, found⟩ := List.mem_iff_getElem?.mp inside
    have known := (covered rfl position entry found).resolve_left List.not_mem_nil
    obtain ⟨outcome, first⟩ :=
      Option.isSome_iff_exists.mp ((Lookup.lookup_isSome_iff_mem ..).mpr known)
    obtain ⟨fetched, among, answer, given, pair⟩ := answered _ (Lookup.mem_of_lookup_eq_some first)
    obtain ⟨sameKey, rfl⟩ := Prod.mk.inj pair
    refine ⟨fetched, (List.mem_filter.mp among).1, sameKey.symm, serial, answer, given, ?_⟩
    rw [first]
    exact Pager.holds_outcome fetched answer

/-- Of a store that stays the same the items are known, if no key is listed twice. -/
theorem HoldsAnswers.items_of_fixed {store : FixedStore} {listed : ObjectPage} {items : List Item}
    (shows : HoldsAnswers (store.replies pager) listed items)
    (distinct : (listed.entries.map (·.key)).Nodup) :
    items = (listed.entries.filter ObjectEntry.isReport).map store.item := by
  have keys : (listed.entries.filter ObjectEntry.isReport).map (·.key) = items.map (·.key) := by
    rw [shows.keys, PageItems.distinct_of_nodup (distinct.sublist (List.filter_sublist.map _))]
  rw [← List.forall₂_eq_eq_eq, List.forall₂_map_left_iff, List.forall₂_map_right_iff] at keys
  have inside := (List.forall₂_and_left _ _).mpr
    ⟨fun entry (member : entry ∈ listed.entries.filter _) => (List.mem_filter.mp member).1, keys⟩
  have stored := (List.forall₂_and_left _ _).mpr ⟨shows.holds, inside.flip⟩
  have same : List.Forall₂ Eq items
      ((listed.entries.filter ObjectEntry.isReport).map store.item) := by
    refine List.forall₂_map_right_iff.mpr (stored.imp ?_)
    rintro ⟨key, status⟩ entry ⟨⟨fetched, among, rfl, serial, answer, rfl, holds⟩, member, sameKey⟩
    obtain rfl : entry = fetched := List.inj_on_of_nodup_map distinct member among sameKey
    exact congrArg (Item.mk entry.key) (Pager.holds_iff.mp holds)
  rwa [List.forall₂_eq_eq_eq] at same

theorem Replies.Accounted.snapshot_on_trail {dashboard : Dashboard}
    (accounted : replies.Accounted dashboard) (decided : replies.Decided listing)
    (trail : Trail listing none pages failure?) {index : Nat} (ready : dashboard.IsReady index) :
    ∃ snapshot listed, dashboard.snapshot index = some snapshot ∧ pages[index]? = some listed ∧
      snapshot.page = index ∧ HoldsAnswers replies listed snapshot.items := by
  obtain ⟨opened, next?, found, status⟩ := ready
  obtain ⟨listed, inside, next, recorded⟩ := accounted.ready_on_trail decided trail found status
  have items : dashboard.laterItems index opened = opened.items := by
    simp [laterItems, found]
  refine ⟨_, listed, by rw [snapshot, snapshotBetween, found, Option.map_some], inside, rfl, ?_⟩
  exact items ▸ recorded.holdsAnswers

theorem Session.prints_of_serves {σ : Type} {kind : StoreKind σ} {states : σ → Prop}
    (serves : kind.Serves states pager replies) (decided : replies.Decided listing)
    (trail : Trail listing none pages failure?)
    {counting : Option String → Except StoreError ObjectPage}
    (counts : kind.Counts states pager counting) {countPages : List ObjectPage}
    {countFailure? : Option StoreError} (countTrail : Trail counting none countPages countFailure?)
    {state : σ} (inside : states state) (painted : Bool) {target patience : Nat}
    (enough : 3 ≤ patience) (counted : countPages.length + countFailure?.toList.length < patience)
    (longEnough : wanted (some target) (pages.length + failure?.toList.length) ≤ patience) :
    Prints painted replies pager (kind.location state) pages failure?
      (reportsOn? countPages countFailure?) target
      ((mount kind state pager false).print painted patience target false) := by
  obtain ⟨events, after, walked, completes, same, value, later, onward⟩ :=
    walk_mount serves decided trail inside false enough longEnough
  have total : after.dashboard.total = .ofCount (reportsOn? countPages countFailure?) :=
    onward ▸ total_settle_mount serves counts countTrail inside false enough counted later
  have settled : after.dashboard.total ≠ .counting := by
    rw [total]
    cases reportsOn? countPages countFailure? <;> exact nofun
  -- The walk reaches the page exactly if the trail has it; the total is settled either way.
  rcases Nat.lt_or_ge target pages.length with present | beyond
  · rw [walkEnd_of_reached _ (.inr ⟨target, rfl, present⟩), wanted_of_lt present] at value
    have ready := (completes.ready target).mpr (wanted_of_lt present ▸ Nat.lt_succ_self target)
    obtain ⟨snapshot, listed, shown, found, page, shows⟩ :=
      (accounted_of_walked walked).snapshot_on_trail decided trail ready
    have printed := print_of_walked settled painted value (Nat.lt_succ_self target) (same ▸ shown)
    have text := says_renderLines painted
      (pageLines after.dashboard.pageTotal? snapshot ++ totalLines after.dashboard.total)
    have known : (TotalCount.ofCount (reportsOn? countPages countFailure?)).known? =
        reportsOn? countPages countFailure? := by
      cases reportsOn? countPages countFailure? <;> rfl
    have samePager : after.dashboard.pager = pager := same ▸ pager_run ..
    rw [texts_page, page, samePager, total, known, ← total] at text
    rw [printed]
    refine ⟨iff_of_true rfl present, ?_, fun beyond => absurd present (Nat.not_lt.mpr beyond)⟩
    intro other foundToo
    obtain rfl := Option.some.inj (found.symm.trans foundToo)
    exact ⟨snapshot.items, shows, text, rfl⟩
  · refine .of_missing beyond ?_
    have within : ∀ last ∈ some target, pages.length ≤ last :=
      fun last member => Option.mem_some_iff.mp member ▸ beyond
    cases failure? with
    | none =>
        have all := wanted_of_le fun last member => Nat.le_succ_of_le (within last member)
        rw [walkEnd_of_reached _ (.inl rfl), all] at value
        exact print_of_short settled painted value beyond
    | some error =>
        rw [walkEnd_of_failed _ error within] at value
        exact print_of_error settled painted value

/-- A walk over the listings of a store loads the pages that it wants, each listed once, and ends
with their number; a listing that fails on the way ends it with its text. In whatever order the work
goes on, the walk can end and ends only so; that of a session at a store that answers at once does.
The program prints a page exactly if the store has it, once all reports have been counted. -/
theorem walks_load_what_is_wanted [DomainNames] (trail : Trail listing none pages failure?) :
    (∀ replies, Replies.Decided replies listing → ∀ location probing last? events,
      let start := Dashboard.mount pager location probing
      start.Walked replies last? events →
        (∀ result, (start.run events).look last? = .ends result →
          start.Completes last? pages failure? result events) ∧
        ∃ more, start.Walked replies last? (events ++ more) ∧
          ∃ result, (start.run (events ++ more)).look last? = .ends result) ∧
    (∀ {σ : Type} (kind : StoreKind σ) states replies, replies.Decided listing →
      kind.Serves states pager replies → ∀ state patience, states state → 3 ≤ patience →
        (∀ probing last?, wanted last? (pages.length + failure?.toList.length) ≤ patience →
          let start := Dashboard.mount pager (kind.location state) probing
          let result := walkEnd (kind.location state) last? pages failure?
          ∃ (events : List Event) (after : Session σ), start.Walked replies last? events ∧
            start.Completes last? pages failure? result events ∧
            after.dashboard = start.run events ∧
            (Session.mount kind state pager probing).walk last? patience patience = (result, after)) ∧
        ∀ counting countPages countFailure?, kind.Counts states pager counting →
          Trail counting none countPages countFailure? →
          countPages.length + countFailure?.toList.length < patience → ∀ painted target,
            wanted (some target) (pages.length + failure?.toList.length) ≤ patience →
            Prints painted replies pager (kind.location state) pages failure?
              (reportsOn? countPages countFailure?) target
              ((Session.mount kind state pager false).print painted patience target false)) ∧
    ∀ (machine : Machine) (settings : Settings) remote, RemoteStore.ofSettings settings = .ok remote →
      Pager.ofPrefix settings.keyPrefix = pager →
      (∀ token?, remote.list machine.network machine.now (pager.query token?) = listing token?) →
      ∀ countPages countFailure?, Trail (fun token? => remote.list machine.network machine.now
          (pager.countQuery token?)) none countPages countFailure? →
        3 ≤ machine.patience → countPages.length + countFailure?.toList.length < machine.patience →
        ∀ target, wanted (some target) (pages.length + failure?.toList.length) ≤ machine.patience →
          Prints machine.paints ((remote.fixed machine.network machine.now).replies pager) pager
            remote.location pages failure? (reportsOn? countPages countFailure?) target
            (machine.perform settings (.print (target + 1) false)) := by
  refine ⟨?_, ?_, ?_⟩
  · intro replies decided location probing last? events start walked
    exact ⟨fun result ends => completes_of_walked walked decided trail ends,
      end_of_walked decided trail location probing walked⟩
  · intro σ kind states replies decided serves state patience inside enough
    refine ⟨fun probing last? longEnough => ?_, fun counting countPages countFailure? counts countTrail
      counted painted target longEnough => Session.prints_of_serves serves decided trail counts
        countTrail inside painted enough counted longEnough⟩
    obtain ⟨events, after, walked, completes, same, value, -⟩ :=
      Session.walk_mount serves decided trail inside probing enough longEnough
    exact ⟨events, after, walked, completes, same, value⟩
  · intro machine settings remote selected samePager listed countPages countFailure? countTrail enough
      counted target longEnough
    have gives := RemoteStore.kind_gives machine.network machine.now remote
    have decided := (remote.fixed machine.network machine.now).decided_replies pager
    have answered : (fun token? => (remote.fixed machine.network machine.now).list
        (pager.query token?)) = listing := funext listed
    rw [answered] at decided
    have run : machine.perform settings (.print (target + 1) false) =
        (Session.mount machine.kind remote pager false).print machine.paints machine.patience target
          false := by
      rw [Machine.perform, Machine.print, Machine.mount, selected, samePager]
      rfl
    rw [run]
    exact Session.prints_of_serves (gives.serves pager) decided trail (gives.counts pager) countTrail
      rfl machine.paints enough counted longEnough

end Trails

/-- Two pages of a bucket, and an object that is no report. The second is printed; a third, and one
behind the greatest number, are missed. Its first page is all that a walk up to there asks for. -/
theorem two_pages_printed_and_third_missed :
    let _ : DomainNames := .plain
    let body := Utf8.encode "\x7b\"SitemapName\":\"b\"\x7d"
    let network : Web.Network := fun request =>
      some { status := 200, body := match request.url.query? with
        | some "prefix=p&maxResults=10" => Utf8.encode
            "\x7b\"items\":[\x7b\"name\":\"a.json\"\x7d],\"nextPageToken\":\"2\"\x7d"
        | some "prefix=p&maxResults=10&pageToken=2" => Utf8.encode
            "\x7b\"items\":[\x7b\"name\":\"b.json\"\x7d,\x7b\"name\":\"c.txt\"\x7d]\x7d"
        | some "prefix=p&maxResults=1000" => Utf8.encode
            "\x7b\"items\":[\x7b\"name\":\"a.json\"\x7d,\x7b\"name\":\"b.json\"\x7d]\x7d"
        | _ => body }
    let machine : Machine := {
      environment := fun _ => none
      contentsOf := fun _ => .error ""
      refusesFile := fun _ => none
      network
      now := ⟨0, 0, by decide, by decide, by decide⟩
      refusesAddress := fun _ => none
      patience := 3 }
    let settings : Settings :=
      { gcp := true, gcsBase := "http://h", gcsBucket := "b", keyPrefix := "p" }
    let remote := RemoteStore.gcs ⟨"http://h", "b"⟩
    let pager := Pager.ofPrefix "p"
    let listing := fun token? => remote.list machine.network machine.now (pager.query token?)
    let pages : List ObjectPage :=
      [⟨[⟨"a.json", none⟩], some "2"⟩, ⟨[⟨"b.json", none⟩, ⟨"c.txt", none⟩], none⟩]
    let start := Dashboard.mount pager "http://h/b" false
    let events := [.askListing 0, .takeListing 0 (listing none), .place 0,
      .takeFetch 0 0 (.error (.notFound "a.json")), .publish 0]
    Trail listing none pages none ∧ start.Walked (.listedBy listing) (some 0) events ∧
      (start.run events).IsReady 0 ∧ ¬ (start.run events).IsReady 1 ∧
      (start.calls events).filter StoreCall.isListing = [.listing 0 ⟨"p", 10, none⟩] ∧
      (∃ after, (Session.mount machine.kind remote pager false).walk none 3 3 = (.ok 2, after)) ∧
      (∃ report : Report, report.sitemap = "b" ∧ machine.perform settings (.print 2 false) =
        { output := String.join ((["→ Page 2 of 2", ""] ++ report.printed ++
          ["", "✓ 2 crawl reports in total"]).map (· ++ "\n")) }) ∧
      machine.perform settings (.print 3 false) =
        .failed "Page 3 does not exist, only 2 page(s) of reports" "" ∧
      machine.perform settings (.print 18446744073709551615 false) =
        .failed "Page 18446744073709551615 does not exist, only 2 page(s) of reports" "" := by
  intro _ body network machine settings remote pager listing pages start events
  have first : listing none = .ok ⟨[⟨"a.json", none⟩], some "2"⟩ := by decide +kernel
  have second : listing (some "2") = .ok ⟨[⟨"b.json", none⟩, ⟨"c.txt", none⟩], none⟩ := by
    decide +kernel
  have trail : Trail listing none pages none := .more first rfl (.last second rfl)
  have all : remote.list network machine.now (pager.countQuery none) =
      .ok ⟨[⟨"a.json", none⟩, ⟨"b.json", none⟩], none⟩ := by decide +kernel
  have countTrail : Trail (fun token? => remote.list machine.network machine.now
      (pager.countQuery token?)) none [⟨[⟨"a.json", none⟩, ⟨"b.json", none⟩], none⟩] none :=
    .last all rfl
  have selected : RemoteStore.ofSettings settings = .ok remote := by decide +kernel
  have worked : start.Worked (.listedBy listing) events := by
    refine .cons (fun _ => Event.noConfusion) trivial (.cons (fun _ => Event.noConfusion) ?_
      (.cons (fun _ => Event.noConfusion) trivial (.cons (fun _ => Event.noConfusion)
        (fun _ _ _ _ _ _ _ => trivial) (.of_free (by simp [Event.isFree])))))
    intro load found _
    obtain rfl : (⟨0, 0, none, .listing⟩ : Load) = load := Option.some.inj found
    rfl
  have ended : (start.run events).look (some 0) = .ends (.ok 1) := by decide +kernel
  let store := remote.fixed network machine.now
  have fetched : store.fetch "b.json" = .ok ⟨body, none⟩ := by decide +kernel
  have written : ∃ byte ∈ body, Blank.isAsciiBlank byte = false := by decide +kernel
  obtain ⟨parsed, parses, named⟩ : ∃ parsed, Report.parse body = .ok parsed ∧ parsed.sitemap = "b" := by
    have readable : (Report.parse body).toOption.any (·.sitemap = "b") = true := by decide +kernel
    cases parses : Report.parse body with
    | error failure => simp [parses, Except.toOption] at readable
    | ok parsed => exact ⟨parsed, rfl, by simpa [parses, Except.toOption] using readable⟩
  have shown : store.item ⟨"b.json", none⟩ = ⟨"b.json", .loaded (parsed.stamped none)⟩ := by
    have holds : Pager.Holds ⟨"b.json", none⟩ (store.fetch "b.json")
        (.loaded (parsed.stamped none)) := fetched ▸ .report written parses
    exact congrArg (Item.mk "b.json") (Pager.holds_iff.mp holds).symm
  obtain ⟨anyOrder, sessions, printed⟩ := walks_load_what_is_wanted trail
  have complete := (anyOrder _ (Replies.decided_listedBy listing) "http://h/b" false (some 0) events
    (worked.walked _)).1 _ ended
  have gives := RemoteStore.kind_gives network machine.now remote
  obtain ⟨_, after, -, -, -, walked⟩ := (sessions machine.kind (· = remote) _
    ((remote.fixed network machine.now).decided_replies pager) (gives.serves pager) remote 3 rfl
    (by decide)).1 false none (by decide)
  have prints := printed machine settings remote selected rfl (fun _ => rfl) _ _ countTrail (by decide)
    (by decide)
  refine ⟨trail, worked.walked _, (complete.ready 0).mpr (by decide),
    fun ready => absurd ((complete.ready 1).mp ready) (by decide), complete.calls.trans ?_,
    ⟨after, walked⟩, ?_, ((prints 2 (by decide)).missing (by decide)).trans ?_,
    ((prints 18446744073709551614 (by decide)).missing (by decide)).trans ?_⟩
  · rw [complete.opened]
    rfl
  · obtain ⟨items, shows, text, result⟩ := (prints 1 (by decide)).present _ rfl
    have kept : [⟨"b.json", none⟩, ⟨"c.txt", none⟩].filter ObjectEntry.isReport =
        [⟨"b.json", none⟩] := by decide +kernel
    obtain rfl : items = [⟨"b.json", .loaded (parsed.stamped none)⟩] := by
      rw [shows.items_of_fixed (by decide), kept, List.map_singleton, shown]
    have label : printedLabel 10 1 (some 2) = "→ Page 2 of 2" := by decide +kernel
    have total : "✓ " ++ Nat.repr 2 ++ " crawl reports in total" = "✓ 2 crawl reports in total" := by
      decide +kernel
    have page : printedPage 10 1 (some 2) [⟨"b.json", .loaded (parsed.stamped none)⟩] =
        ["→ Page 2 of 2", ""] ++ (parsed.stamped none).printed
          ++ ["", "✓ 2 crawl reports in total"] := by
      simp [printedPage, Item.printed, label, total]
    refine ⟨parsed.stamped none, named, result.trans ?_⟩
    rw [text.plain rfl, ← page]
    rfl
  · decide +kernel
  · decide +kernel

end CrawlBoard
