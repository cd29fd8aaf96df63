import CrawlBoard.Proofs.Html.Frame
import CrawlBoard.Site.Page

namespace CrawlBoard.Html

/-- How a section begins, how that of an item begins, and how it ends. -/
def sectionTags : List (List Char) :=
  ["<section".toList, "<section class=\"sitemap\">".toList, "</section>".toList]

abbrev NoSections (lines : List HtmlLine) : Prop := Counts sectionTags 0 lines

namespace NoSections

variable {lines others : List HtmlLine} {depth : Nat}

theorem append (first : NoSections lines) (second : NoSections others) :
    NoSections (lines ++ others) :=
  Counts.append first second

theorem blank (depth : Nat) : NoSections [blank depth] := by
  have spaces (count : Nat) : Entity.Escaped (List.replicate count ' ') := by
    induction count with
    | zero => exact .nil
    | succ count ih => exact .plain rfl (by decide) ih
  have free (name : List Char) := whole_of_escaped name (spaces (4 * depth))
  have opened (tag : List Char) (known : tag ∈ sectionTags) : ∃ name, tag = '<' :: name := by
    simp only [sectionTags, List.mem_cons, List.not_mem_nil, or_false] at known
    rcases known with rfl | rfl | rfl <;> exact ⟨_, rfl⟩
  intro tag known
  obtain ⟨name, rfl⟩ := opened tag known
  simpa [markups, Html.blank, line, Piece.markup?] using free name

theorem option (inner : NoSections lines) : NoSections (option depth lines) :=
  (blank depth).append (inner.append (blank depth))

theorem when (condition : Bool) (inner : NoSections lines) :
    NoSections (when depth condition lines) := by
  cases condition with
  | false => exact blank depth
  | true => exact option inner

theorem flatMap {α : Type} {lines : α → List HtmlLine} (items : List α)
    (inner : ∀ item, NoSections (lines item)) : NoSections (items.flatMap lines) := by
  have counted : Counts sectionTags (items.length * 0) (items.flatMap lines) :=
    .flatMap fun item _ => inner item
  exact counted

theorem each {α : Type} {lines : α → List HtmlLine} (items : List α)
    (inner : ∀ item, NoSections (lines item)) : NoSections (each depth items lines) :=
  (blank depth).append (flatMap items fun item => (inner item).append (blank depth))

end NoSections

section Sections

theorem noSections_urlList (urls : List String) : NoSections (urlList urls) := by
  have item (url : String) : NoSections (urlLine url) :=
    (by decide : NoSections (urlLine ""))
  refine .append (.append ?_ (.each urls item)) (by decide)
  simp only [NoSections, Counts, line, markup, markups_cons, markup?_markup_cons,
    markup?_number_cons, markups_nil, List.filterMap_nil, List.cons_append, List.nil_append,
    List.map_cons, List.map_nil]
  repeat rw [String.toList_ofList]
  decide

theorem noSections_failureTable (failures : List FailureRow) :
    NoSections (failureTable failures) := by
  have item (failure : FailureRow) : NoSections (row "failure-link" failure.url
      [failure.status, failure.message, failure.shacl, failure.shaclMessage]) :=
    (by decide : NoSections (row "failure-link" "" ["", "", "", ""]))
  refine .append (.append ?_ (.append (.append (by decide)
    (.each failures item)) (by decide))) (by decide)
  simp only [NoSections, Counts, line, markup, markups_cons, markup?_markup_cons,
    markup?_number_cons, markups_nil, List.filterMap_nil, List.cons_append, List.nil_append,
    List.map_cons, List.map_nil]
  repeat rw [String.toList_ofList]
  decide

theorem noSections_warningTable (warnings : WarningView) : NoSections (warningTable warnings) := by
  have item (warning : WarningRow) :
      NoSections (row "warning-link" warning.url [warning.shacl, warning.message]) :=
    (by decide : NoSections (row "warning-link" "" ["", ""]))
  refine .append (.append ?_ (.append (.append (by decide)
    (.each warnings.rows item)) (by decide))) (by decide)
  simp only [NoSections, Counts, line, markup, markups_cons, markup?_markup_cons,
    markup?_number_cons, markup?_text_cons]
  decide

theorem noSections_reportLines (report : ReportView) : NoSections (reportLines report) := by
  have source (link : String) : NoSections [sourceLine link] :=
    (by decide : NoSections [sourceLine ""])
  have sources : NoSections (report.sourceLink?.toList.map sourceLine) := by
    rw [List.map_eq_flatMap]
    exact .flatMap _ source
  have failures : NoSections
      (Html.when 3 (!report.failures.isEmpty) (failureTable report.failures)) :=
    .when _ (noSections_failureTable report.failures)
  have warnings := NoSections.flatMap report.warnings?.toList noSections_warningTable
  refine .append (.append (.append (.append (.append (.append (.append (.append ?_
    (.option sources)) (by decide)) (noSections_urlList report.urls))
    (by decide)) failures) (by decide)) (.option warnings))
    (by decide)
  simp only [NoSections, Counts, line, markup, markups_cons, markup?_markup_cons,
    markup?_number_cons, markup?_text_cons]
  decide

theorem counts_cardSection (card : Card) : Counts sectionTags 1 (cardSection card) := by
  have error : NoSections (errorLines "" "") := by decide
  have loading : NoSections (loadingLines "") := by decide
  have around : Counts sectionTags 1
      ([markup 2 "<section class=\"sitemap\">"] ++ [markup 2 "</section>"]) := by
    decide
  rw [cardSection]
  cases card.report? with
  | some report => exact around.insert (NoSections.option (noSections_reportLines report))
  | none =>
      cases card.error? with
      | some message => exact around.insert (NoSections.option (NoSections.option error))
      | none => exact around.insert (NoSections.option (NoSections.option loading))

theorem counts_content (board : BoardPage) :
    Counts sectionTags (if board.error?.isSome then 0 else board.cards.length) (content board) := by
  rw [content]
  cases board.error? with
  | some message => exact (by decide : NoSections (listingError 0 ""))
  | none =>
      have empty : NoSections [emptyLine board.location] :=
        (by decide : NoSections [emptyLine ""])
      have cards : Counts sectionTags (board.cards.length * 1) (each 2 board.cards cardSection) :=
        .after (NoSections.blank 2)
          (.flatMap fun card _ => .append (counts_cardSection card) (NoSections.blank 2))
      rw [Nat.mul_one] at cards
      exact .after (NoSections.when _ empty) cards

theorem noSections_pagination (board : BoardPage) : NoSections (pagination board) := by
  have prev : NoSections (pageLink board.prev? "&larr; Previous") := by
    cases board.prev?
    · decide
    · exact (by decide : NoSections (pageLink (some 0) "&larr; Previous"))
  have next : NoSections (pageLink board.next? "Next &rarr;") := by
    cases board.next?
    · decide
    · exact (by decide : NoSections (pageLink (some 0) "Next &rarr;"))
  have label : NoSections [line 3 ([.markup "<span class=\"page-label\">", .text board.label]
      ++ (if board.counting then [.markup " (counting reports&hellip;)"] else [])
      ++ [.markup "</span>"])] := by
    cases board.counting <;>
      simp only [NoSections, Counts, line, markups_cons, markup?_markup_cons, markup?_text_cons,
        List.cons_append, List.nil_append, if_true, Bool.false_eq_true, if_false] <;>
      decide
  exact .append (.append (.append (.append (by decide) prev) label) next)
    (by decide)

theorem noSections_summary (indexUrl? : Option String) (summary : String) :
    NoSections (summaryLines indexUrl? summary) := by
  cases indexUrl? with
  | none => exact (by decide : NoSections (summaryLines none ""))
  | some url => exact (by decide : NoSections (summaryLines (some "") ""))

theorem noSections_head (refresh : Bool) : NoSections (head (some refresh)) := by
  cases refresh <;>
    simp only [NoSections, Counts, head, line, markup, blank, Option.toList_some, List.map_cons,
      List.map_nil, markups_cons, markups_nil, markup?_markup_cons, markup?_text_cons,
      List.filterMap_nil, List.cons_append, List.nil_append, if_true, Bool.false_eq_true, if_false]
  all_goals
    repeat rw [String.toList_ofList]
    decide

theorem noSections_header : NoSections header := by
  simp only [NoSections, Counts, header, download, external, line, markup, List.map_cons,
    List.map_nil, markups_cons, markups_nil, markup?_markup_cons, markup?_text_cons,
    List.filterMap_nil, List.cons_append, List.nil_append, String.toList_append]
  repeat rw [String.toList_ofList]
  decide +kernel

theorem counts_boardPage (board : BoardPage) :
    Counts sectionTags (if board.error?.isSome then 0 else board.cards.length)
      (boardPage board) := by
  have top : NoSections ([markup 0 "<body>"] ++ header
      ++ [[], markup 1 "<main>", markup 2 "<div class=\"brevity-info\">"]) :=
    .append (.append (by decide) noSections_header) (by decide)
  have summary : NoSections
      (option 3 (board.summary?.toList.flatMap (summaryLines board.indexUrl?))) :=
    .option (.flatMap _ (noSections_summary board.indexUrl?))
  have front := (((top.append summary).append
    (by decide : NoSections [markup 2 "</div>", []])).append
    (noSections_pagination board)).append (by decide : NoSections [[]])
  have back : NoSections [markup 1 "</main>", markup 0 "</body>", markup 0 "</html>"] := by
    decide
  have content : Counts sectionTags _ (option 2 (content board)) :=
    .after (NoSections.blank 2) (.append (counts_content board) (NoSections.blank 2))
  exact .after (noSections_head board.refresh) (.append (.after front content) back)

end Sections

end CrawlBoard.Html

