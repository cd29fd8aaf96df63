import CrawlBoard.CommandLine.Pages
/-!
What is printed of a page, as plain text: its label, the reports and failures of its items, and the
number of all reports. Paint adds nothing to read.
-/

namespace CrawlBoard

def Line.text (line : Line) : String := String.join (line.map (·.text))

/-- The output is these lines, each with a line feed; some of their parts may be painted. -/
structure Says (painted : Bool) (output : String) (texts : List String) : Prop where
  lines : ∃ lines : List Line, lines.map Line.text = texts ∧ output = renderLines painted lines
  plain : painted = false → output = String.join (texts.map (· ++ "\n"))

@[simp] theorem Line.text_nil : Line.text [] = "" := rfl

@[simp] theorem Line.text_cons (span : Span) (line : Line) :
    Line.text (span :: line) = span.text ++ Line.text line := String.join_cons

@[simp] theorem text_plain (text : String) : (plain text).text = text := rfl

@[simp] theorem text_on (paint : Paint) (text : String) : (paint.on text).text = text := rfl

theorem Line.render_plain (line : Line) : line.render false = line.text := by
  have same : Span.render false = Span.text := funext fun span => by simp [Span.render]
  rw [Line.render, Line.text, same]

theorem says_renderLines (painted : Bool) (lines : List Line) :
    Says painted (renderLines painted lines) (lines.map Line.text) where
  lines := ⟨lines, rfl, rfl⟩
  plain := by
    rintro rfl
    simp [renderLines, Line.render_plain, Function.comp_def]

def UrlFailure.printed (failure : UrlFailure) : List String :=
  let status := if failure.status = 0 then "" else "[" ++ toString failure.status.toNat ++ "] "
  ("    " ++ status ++ failure.url ++ " " ++ failure.message) ::
    if failure.shaclMessage = "" then []
    else ["      SHACL " ++ failure.shacl.name ++ ": " ++ failure.shaclMessage]

def ShaclWarning.printed (warning : ShaclWarning) : String :=
  "    " ++ warning.url ++ " " ++ warning.shacl.name ++ ": " ++ warning.message

def WarningSummary.printed (summary : WarningSummary) : List String :=
  ("  Semantic Warnings (" ++ toString summary.total.toNat ++ ")") ::
    ("    Displaying the first " ++ toString summary.sample.length ++ " out of "
      ++ toString summary.total.toNat ++ " total warnings for the sake of brevity") ::
    summary.sample.map ShaclWarning.printed

def Report.printed (report : Report) : List String :=
  let failures := report.failures?.getD []
  ["✓ Sitemap: " ++ report.sitemap ++ "  Last Modified: " ++ report.lastModifiedDate,
    "  Sites Harvested: " ++ toString report.sitesHarvested.toNat ++ " / "
      ++ toString report.sitesListed.toNat,
    "  Time to Complete: " ++ (Real.fixedText report.seconds ++ "s")]
  ++ (report.sourceLink?.filter (· ≠ "")).toList.map ("  Source: " ++ ·)
  ++ ["  Successful URLs (" ++ toString report.harvestedUrls.length ++ ")"]
  ++ (if failures = [] then []
    else ("  Failures (" ++ toString failures.length ++ ")") :: failures.flatMap UrlFailure.printed)
  ++ (report.warnings?.filter fun summary => summary.total ≠ 0 ∨ summary.sample ≠ []).toList.flatMap
    WarningSummary.printed

def Item.printed (item : Item) : List String :=
  match item.status with
  | .loading => ["… " ++ item.key ++ " (still loading)"]
  | .loaded report => report.printed
  | .failed message => ["✗ " ++ item.key, "  Error loading report: " ++ message]

/-- The pages are as many as hold all reports, but no less than the page's own number; the greatest
number has no successor. -/
def printedLabel (pageSize target : Nat) (reports? : Option Nat) : String :=
  let number := min (target + 1) 18446744073709551615
  match reports? with
  | some reports => "→ Page " ++ toString number ++ " of "
      ++ toString (max (max 1 ((reports + pageSize - 1) / pageSize)) number)
  | none => "→ Page " ++ toString number

def printedPage (pageSize target : Nat) (reports? : Option Nat) (items : List Item) : List String :=
  [printedLabel pageSize target reports?, ""]
  ++ (if items = [] then ["  No crawl reports on this page"] else [])
  ++ items.flatMap (fun item => item.printed ++ [""])
  ++ reports?.toList.map fun reports => "✓ " ++ toString reports ++ " crawl reports in total"

theorem texts_failure (failure : UrlFailure) :
    failure.row.lines.map Line.text = failure.printed := by
  simp only [FailureRow.lines, UrlFailure.row, UrlFailure.printed, List.map_cons, List.cons.injEq]
  constructor
  · by_cases silent : failure.status = 0 <;>
      simp [UrlFailure.statusText, silent, ← String.toList_inj]
  · by_cases valid : failure.shaclMessage = "" <;> simp [valid]

theorem texts_warnings (summary : WarningSummary) :
    summary.view.lines.map Line.text = summary.printed := by
  simp only [WarningView.lines, WarningSummary.view, WarningSummary.printed, List.map_cons,
    List.map_map, List.cons.injEq]
  refine ⟨?_, ?_, List.map_congr_left fun warning _ => ?_⟩
  · simp [← String.toList_inj]
  · rw [Line.text_cons, Line.text_cons, Line.text_nil, text_plain, text_on, String.append_empty]
    unfold WarningSummary.note
    generalize toString summary.sample.length = shown, toString summary.total.toNat = total
    simp only [← String.append_assoc, String.reduceAppend]
  · simp [ShaclWarning.row, ShaclWarning.printed]

theorem texts_failures (failures : List UrlFailure) :
    (FailureRow.section (failures.map UrlFailure.row)).map Line.text =
      if failures = [] then [] else
        ("  Failures (" ++ toString failures.length ++ ")") :: failures.flatMap UrlFailure.printed := by
  cases failures with
  | nil => rfl
  | cons first others =>
      have lines := congrArg (List.flatMap · (first :: others)) (funext texts_failure)
      rw [FailureRow.section, if_neg (by simp), if_neg (List.cons_ne_nil _ _), List.map_cons,
        List.cons_eq_cons, List.map_flatMap, List.flatMap_map]
      exact ⟨by simp [← String.toList_inj], lines⟩

theorem texts_sourceLink (link? : Option String) :
    ((link?.filter fun link => !link.isEmpty).toList.map fun link =>
      [plain ("  Source: " ++ link)]).map Line.text =
      (link?.filter (· ≠ "")).toList.map ("  Source: " ++ ·) := by
  cases link? with
  | none => rfl
  | some link => by_cases empty : link = "" <;> simp [Option.filter, empty]

theorem texts_shownWarnings (report : Report) :
    ((report.shownWarnings?.map WarningSummary.view).toList.flatMap WarningView.lines).map Line.text =
      (report.warnings?.filter fun summary => summary.total ≠ 0 ∨ summary.sample ≠ []).toList.flatMap
        WarningSummary.printed := by
  rw [← Report.shownWarnings?_eq]
  cases report.shownWarnings? with
  | none => rfl
  | some summary => simpa using texts_warnings summary

theorem texts_report (report : Report) : report.view.lines.map Line.text = report.printed := by
  have head : Line.text [Paint.green.on "✓", plain " Sitemap: ", Paint.bold.on report.sitemap,
      plain "  ", Paint.dim.on ("Last Modified: " ++ report.lastModifiedDate)] =
      "✓ Sitemap: " ++ report.sitemap ++ "  Last Modified: " ++ report.lastModifiedDate := by
    simp [← String.toList_inj]
  have urls : Line.text [plain "  ", Paint.green.on
      ("Successful URLs (" ++ toString report.harvestedUrls.length ++ ")")] =
      "  Successful URLs (" ++ toString report.harvestedUrls.length ++ ")" := by
    simp [← String.toList_inj]
  simp only [ReportView.lines, Report.view, Report.printed, List.map_append]
  rw [texts_sourceLink, texts_shownWarnings, Report.failures, texts_failures]
  simp only [List.map_cons, List.map_nil, head, urls, Line.text_cons, Line.text_nil, text_plain,
    String.append_empty, Report.durationText]

theorem texts_item (item : Item) : item.card.lines.map Line.text = item.printed ++ [""] := by
  obtain ⟨key, status⟩ := item
  cases status with
  | loading =>
      simp [Card.lines, Item.card, Item.printed, Item.report?, Item.error?, ← String.toList_inj]
  | loaded report =>
      simp [Card.lines, Item.card, Item.printed, Item.report?, texts_report]
  | failed message =>
      simp [Card.lines, Item.card, Item.printed, Item.report?, Item.error?, ← String.toList_inj]

theorem texts_label (dashboard : Dashboard) (page : Nat) :
    "→ " ++ pageLabel page dashboard.pageTotal? =
      printedLabel dashboard.pager.pageSize page dashboard.total.known? := by
  have arrow (text : String) : "→ " ++ ("Page " ++ text) = "→ Page " ++ text := by
    simp only [← String.append_assoc, String.reduceAppend]
  have number : pageNumber page = min (page + 1) 18446744073709551615 := rfl
  unfold pageLabel printedLabel Dashboard.pageTotal?
  rw [number]
  cases dashboard.total.known? with
  | none => exact arrow _
  | some reports =>
      simp only [Option.map_some, String.append_assoc]
      exact arrow _

theorem texts_total (total : TotalCount) : (totalLines total).map Line.text =
    total.known?.toList.map fun reports => "✓ " ++ toString reports ++ " crawl reports in total" := by
  have mark (text : String) : "✓" ++ (" " ++ text) = "✓ " ++ text := by
    simp only [← String.append_assoc, String.reduceAppend]
  rw [totalLines, List.map_map]
  refine List.map_congr_left fun reports _ => ?_
  simp [mark, String.append_assoc]

theorem texts_page (dashboard : Dashboard) (snapshot : Snapshot) :
    (pageLines dashboard.pageTotal? snapshot ++ totalLines dashboard.total).map Line.text =
      printedPage dashboard.pager.pageSize snapshot.page dashboard.total.known? snapshot.items := by
  have head : [[Paint.cyan.on "→", plain " ",
      Paint.bold.on (pageLabel snapshot.page dashboard.pageTotal?)], []].map Line.text =
      [printedLabel dashboard.pager.pageSize snapshot.page dashboard.total.known?, ""] := by
    have space (text : String) : "→" ++ (" " ++ text) = "→ " ++ text := by
      simp only [← String.append_assoc, String.reduceAppend]
    rw [← texts_label]
    simp [space]
  have none : (if snapshot.items.isEmpty then [[plain "  No crawl reports on this page"]]
      else []).map Line.text =
      if snapshot.items = [] then ["  No crawl reports on this page"] else [] := by
    cases snapshot.items <;> rfl
  have items : (snapshot.cards.flatMap Card.lines).map Line.text =
      snapshot.items.flatMap fun item => item.printed ++ [""] := by
    rw [Snapshot.cards, List.flatMap_map, List.map_flatMap]
    exact congrArg (List.flatMap · snapshot.items) (funext texts_item)
  rw [pageLines, printedPage, List.map_append, List.map_append, List.map_append, head, none, items,
    texts_total]

end CrawlBoard
