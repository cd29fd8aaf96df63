import CrawlBoard.Proofs.Html.BoardShape
import CrawlBoard.Proofs.Html.Sections
import CrawlBoard.Proofs.SiteRuns

namespace CrawlBoard

namespace Site

open Html (boardPage failurePage markupChars)

theorem snapshot_of_openPage {site opened : Site} {page : Nat} {reload : Bool}
    {snapshot : Snapshot} (shown : site.openPage page reload = .ok (snapshot, opened)) :
    opened.dashboard.snapshot page = some snapshot := by
  rw [Dashboard.openPage_eq] at shown
  cases performed : site.dashboard.perform (Dashboard.opening page reload) with
  | error error =>
      rw [performed] at shown
      cases shown
  | ok dashboard =>
      rw [performed] at shown
      simp only [Except.bind] at shown
      split at shown
      · cases shown
        assumption
      · cases shown

theorem board_html (site : Site) (query : String)
    (html : (site.board query).1.contentType? = some htmlType) :
    (∃ message, (site.board query).1.body = Html.renderLines (failurePage message)) ∨
      ∃ (opened : Site) (page : Nat) (snapshot : Snapshot),
        opened.dashboard.snapshot page = some snapshot ∧
        (site.board query).1.body = Html.renderLines (boardPage (opened.boardOf page snapshot)) := by
  unfold board at html ⊢
  split at html
  · have plain : plainType = htmlType := Option.some.inj html
    exact absurd plain (by decide)
  · rename_i params parsed
    dsimp only
    split
    · rename_i error missing
      exact .inl ⟨unavailable (params.page?.getD 0) error, rfl⟩
    · rename_i snapshot opened shown
      refine .inr ⟨opened, params.page?.getD 0, snapshot, snapshot_of_openPage shown, ?_⟩
      dsimp only

/-- What is shown of a snapshot is escaped in the holes of a frame, and escaped text has no markup
and reads back. Snapshots of one shape have one frame, so their pages have the same markup
characters, and as many sections as there are items, or none beside an error. -/
theorem boards_of_one_shape (site other : Site) (page : Nat) (snapshot changed : Snapshot)
    (sites : site.Alike other) (alike : snapshot.Alike changed) :
    let board := Html.renderLines (boardPage (site.boardOf page snapshot))
    let changedBoard := Html.renderLines (boardPage (other.boardOf page changed))
    let failure (message : String) := Html.renderLines (failurePage message)
    let frame := Html.frame (boardPage (site.boardOf page snapshot))
    (∀ text, Entity.Escaped (Entity.escapeHtml text).toList ∧
      Entity.unescapeHtml (Entity.escapeHtml text) = text) ∧
    Html.Shows board frame (site.texts page snapshot) ∧
    Html.Shows changedBoard frame (other.texts page changed) ∧
    (∀ message, Html.Shows (failure message) (Html.frame (failurePage ""))
      [boardTitle, boardTitle, message]) ∧
    markupChars board = markupChars changedBoard ∧
    (∀ message another, markupChars (failure message) = markupChars (failure another)) ∧
    (∀ tag ∈ Html.sectionTags, Html.occurrences tag board.toList =
      if snapshot.error?.isSome then 0 else snapshot.items.length) ∧
    ∀ query, (site.board query).1.contentType? = some htmlType →
      (∃ message, (site.board query).1.body = failure message) ∨
        ∃ (opened : Site) (shown : Nat) (snapshot : Snapshot),
          opened.dashboard.snapshot shown = some snapshot ∧
          (site.board query).1.body = Html.renderLines (boardPage (opened.boardOf shown snapshot)) := by
  intro board changedBoard failure frame
  -- Both boards have the frame of the first one.
  have boards : frame = Html.frame (boardPage (other.boardOf page changed)) :=
    Html.frame_of_sameMarkup (Html.sameMarkup_boardPage sites alike)
  have failures (message another : String) :
      Html.frame (failurePage message) = Html.frame (failurePage another) :=
    Html.frame_of_sameMarkup rfl
  refine ⟨fun text => ⟨Entity.escaped_escapeHtml text, Entity.unescapeHtml_escapeHtml text⟩,
    ?_, ?_, ?_, ?_, ?_, ?_, site.board_html⟩
  · exact Html.texts_boardPage site page snapshot ▸ Html.renderLines_shows _
  · rw [boards, ← Html.texts_boardPage]
    exact Html.renderLines_shows _
  · intro message
    rw [failures "" message]
    exact Html.renderLines_shows (failurePage message)
  · rw [Html.markupChars_renderLines, Html.markupChars_renderLines, ← boards]
  · intro message another
    rw [Html.markupChars_renderLines, Html.markupChars_renderLines, failures message another]
  · intro tag known
    have counts := Html.counts_boardPage (site.boardOf page snapshot)
    have cards : (site.boardOf page snapshot).cards.length = snapshot.items.length :=
      List.length_map _
    rw [cards] at counts
    simp only [Html.sectionTags, List.mem_cons, List.not_mem_nil, or_false] at known
    rcases known with rfl | rfl | rfl <;> exact counts.occurrences (by decide +kernel)

namespace Named

def report (name url : String) : Report where
  sitemap := name
  harvestedUrls := [url]
  failures? := some [⟨url, 404, name, .invalid, name⟩]
  seconds := 1.5
  sitesHarvested := 1
  sitesListed := 2
  warnings? := some ⟨1, [⟨url, .skipped, name⟩]⟩
  sourceLink? := some url
  lastModified? := none

def snapshot (key name url : String) : Snapshot where
  page := 1
  phase := .pageReady
  loading := false
  error? := none
  items := [⟨key, .failed name⟩, ⟨"b.json", .loaded (report name url)⟩]
  hasPrev := true
  hasNext := false
  total := .known 3
  pages? := some 2
  sitemaps? := some 9

def site (indexUrl location : String) : Site where
  dashboard := .mount (.ofPrefix "") location false
  location
  indexUrl? := some indexUrl

/-- Names that spell markup, beside plain ones. -/
theorem markup_in_names_is_text :
    let hostile := site "\" onclick='alert(1)'" "</p><section class=\"sitemap\">"
    let named := snapshot "</section>" "<script>&lt;" "'><a href=\""
    let plain := site "https://example.org/sitemap.xml" "s3"
    let plainNamed := snapshot "a.json" "alpha" "https://example.org/"
    hostile.Alike plain ∧ named.Alike plainNamed ∧
      markupChars (Html.renderLines (boardPage (hostile.boardOf 1 named))) =
        markupChars (Html.renderLines (boardPage (plain.boardOf 1 plainNamed))) ∧
      ∀ tag ∈ Html.sectionTags,
        Html.occurrences tag (Html.renderLines (boardPage (hostile.boardOf 1 named))).toList = 2 := by
  intro hostile named plain plainNamed
  have sites : hostile.Alike plain := rfl
  have reports : (report "<script>&lt;" "'><a href=\"").Alike
      (report "alpha" "https://example.org/") :=
    ⟨rfl, rfl, by decide +kernel, by decide +kernel⟩
  have alike : named.Alike plainNamed := {
    loading := rfl
    error := rfl
    items := .cons (.failed _ _) (.cons (.loaded reports) .nil)
    next := rfl
    counting := by decide +kernel
    known := rfl
    sitemaps := rfl }
  have ⟨_, _, _, _, markup, _, sections, _⟩ :=
    boards_of_one_shape hostile plain 1 named plainNamed sites alike
  exact ⟨sites, alike, markup, sections⟩

end Named

end Site

end CrawlBoard
