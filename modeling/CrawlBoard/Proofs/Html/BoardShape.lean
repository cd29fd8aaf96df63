import CrawlBoard.Proofs.Html.Frame
import CrawlBoard.Site.Router
/-!
Snapshots of one shape have pages of one frame: it depends only on what there is to show, how many
items, URLs, failures and warnings and which of the optional parts, and their texts fill its holes.
-/

namespace CrawlBoard

/-- As many URLs, failures and warnings are shown, and a source link in both or in neither. -/
structure Report.Alike (report other : Report) : Prop where
  urls : report.harvestedUrls.length = other.harvestedUrls.length
  failures : (report.failures?.getD []).length = (other.failures?.getD []).length
  warnings : (report.warnings?.filter fun summary => summary.total ≠ 0 ∨ summary.sample ≠ []).map
      (·.sample.length) =
    (other.warnings?.filter fun summary => summary.total ≠ 0 ∨ summary.sample ≠ []).map
      (·.sample.length)
  source : (report.sourceLink?.filter fun link => !link.isEmpty).isSome =
    (other.sourceLink?.filter fun link => !link.isEmpty).isSome

inductive ItemStatus.Alike : ItemStatus → ItemStatus → Prop where
  | loading : Alike .loading .loading
  | loaded {report other : Report} (reports : report.Alike other) :
      Alike (.loaded report) (.loaded other)
  | failed (message other : String) : Alike (.failed message) (.failed other)

structure Snapshot.Alike (snapshot other : Snapshot) : Prop where
  loading : snapshot.loading = other.loading
  error : snapshot.error?.isSome = other.error?.isSome
  items : List.Forall₂ (fun item changed => item.status.Alike changed.status)
    snapshot.items other.items
  next : snapshot.hasNext = other.hasNext
  counting : snapshot.total = .counting ↔ other.total = .counting
  known : snapshot.total.known?.isSome = other.total.known?.isSome
  sitemaps : snapshot.sitemaps?.isSome = other.sitemaps?.isSome

def Site.Alike (site other : Site) : Prop :=
  (site.indexUrl?.filter fun url => !url.isEmpty).isSome =
    (other.indexUrl?.filter fun url => !url.isEmpty).isSome

def UrlFailure.texts (failure : UrlFailure) : List String :=
  [failure.url, failure.statusText, failure.message, failure.shacl.name, failure.shaclMessage]

def ShaclWarning.texts (warning : ShaclWarning) : List String :=
  [warning.url, warning.shacl.name, warning.message]

def WarningSummary.texts (summary : WarningSummary) : List String :=
  toString summary.total.toNat :: summary.note :: summary.sample.flatMap ShaclWarning.texts

def Report.texts (report : Report) : List String :=
  let failures := report.failures?.getD []
  [report.sitemap, report.lastModifiedDate, toString report.sitesHarvested.toNat,
    toString report.sitesListed.toNat, report.durationText]
  ++ (report.sourceLink?.filter fun link => !link.isEmpty).toList
  ++ toString report.harvestedUrls.length :: report.harvestedUrls.flatMap (fun url => [url, url])
  ++ (if failures = [] then [] else toString failures.length :: failures.flatMap UrlFailure.texts)
  ++ (report.warnings?.filter fun summary => summary.total ≠ 0 ∨ summary.sample ≠ []).toList.flatMap
    WarningSummary.texts

def Item.texts (item : Item) : List String :=
  match item.status with
  | .loading => [item.key]
  | .loaded report => report.texts
  | .failed message => [item.key, message]

def Site.headTexts (site : Site) (snapshot : Snapshot) : List String :=
  (indexSummary? snapshot.total.known? snapshot.sitemaps?).toList.flatMap fun summary =>
    (site.indexUrl?.filter fun url => !url.isEmpty).toList ++ [summary]

def Site.contentTexts (site : Site) (page : Nat) (snapshot : Snapshot) : List String :=
  match snapshot.error? with
  | some message => [message, toString page]
  | none =>
      (if snapshot.items.isEmpty && !snapshot.loading then [site.location] else [])
        ++ snapshot.items.flatMap Item.texts

def Site.texts (site : Site) (page : Nat) (snapshot : Snapshot) : List String :=
  [boardTitle, boardTitle] ++ site.headTexts snapshot
  ++ (if page = 0 then [] else [toString (page - 1)]) ++ [pageLabel page snapshot.pages?]
  ++ (if snapshot.hasNext then [toString (page + 1)] else [])
  ++ site.contentTexts page snapshot

namespace Html

section Texts

theorem texts_table (titles : List String) (rows : List HtmlLine) :
    texts (table titles rows) = texts rows := by
  simp [table]

theorem texts_row (linkClass url : String) (cells : List String) :
    texts (row linkClass url cells) = url :: cells := by
  simp [row]

theorem texts_reportLines (report : Report) : texts (reportLines report.view) = report.texts := by
  have source : report.view.sourceLink?.toList.flatMap
      (fun link => (sourceLine link).filterMap Piece.text?) = report.view.sourceLink?.toList := by
    cases report.view.sourceLink? <;> rfl
  have urls : texts (urlList report.view.urls) =
      toString report.harvestedUrls.length :: report.harvestedUrls.flatMap fun url => [url, url] := by
    simp [urlList, urlLine, Report.view]
  have failures : texts (failureTable report.view.failures) =
      toString report.failures.length :: report.failures.flatMap UrlFailure.texts := by
    simp [failureTable, texts_table, texts_row, Report.view, List.flatMap_map, UrlFailure.row]
    rfl
  have warnings : report.view.warnings?.toList.flatMap (fun view => texts (warningTable view)) =
      (report.warnings?.filter fun summary => summary.total ≠ 0 ∨ summary.sample ≠ []).toList.flatMap
        WarningSummary.texts := by
    have shown (summary : WarningSummary) : texts (warningTable summary.view) = summary.texts := by
      simp [warningTable, texts_table, texts_row, WarningSummary.view, List.flatMap_map,
        ShaclWarning.row]
      rfl
    rw [Report.view, ← Report.shownWarnings?_eq]
    cases report.shownWarnings? with
    | none => rfl
    | some summary => simp [shown]
  have none : report.view.failures.isEmpty = report.failures.isEmpty := List.isEmpty_map
  simp [reportLines, source, urls, failures, warnings, none, Report.texts, Report.failures]
  exact ⟨rfl, rfl, rfl, rfl, rfl, rfl⟩

theorem texts_cardSection (item : Item) : texts (cardSection item.card) = item.texts := by
  obtain ⟨key, status⟩ := item
  cases status with
  | loading => simp [cardSection, Item.card, Item.error?, Item.report?, loadingLines, Item.texts]
  | loaded report =>
      simp [cardSection, Item.card, Item.report?, texts_reportLines, Item.texts]
  | failed message =>
      simp [cardSection, Item.card, Item.error?, Item.report?, errorLines, Item.texts]

theorem empty_boardOf (site : Site) (page : Nat) (snapshot : Snapshot) :
    ((site.boardOf page snapshot).cards.isEmpty && !(site.boardOf page snapshot).refresh) =
      (snapshot.items.isEmpty && !snapshot.loading) := by
  cases items : snapshot.items <;>
    simp [Site.boardOf, Snapshot.cards, Snapshot.pending, items]

theorem texts_content (site : Site) (page : Nat) (snapshot : Snapshot) :
    texts (content (site.boardOf page snapshot)) = site.contentTexts page snapshot := by
  rw [content, Site.contentTexts, empty_boardOf]
  cases failed : snapshot.error? with
  | some message => simp [Site.boardOf, failed, listingError]
  | none =>
      simp [Site.boardOf, failed, emptyLine, Snapshot.cards, List.flatMap_map, texts_cardSection]

theorem texts_summary (site : Site) (page : Nat) (snapshot : Snapshot) :
    (site.boardOf page snapshot).summary?.toList.flatMap (fun summary =>
        texts (summaryLines (site.boardOf page snapshot).indexUrl? summary)) =
      site.headTexts snapshot := by
  rw [Site.headTexts]
  refine congrArg (List.flatMap · _) (funext fun summary => ?_)
  simp only [Site.boardOf]
  cases site.indexUrl?.filter fun url => !url.isEmpty <;> simp [summaryLines]

theorem texts_pagination (site : Site) (page : Nat) (snapshot : Snapshot) :
    texts (pagination (site.boardOf page snapshot)) =
      (if page = 0 then [] else [toString (page - 1)]) ++ [pageLabel page snapshot.pages?]
        ++ (if snapshot.hasNext then [toString (page + 1)] else []) := by
  have link (page? : Option Nat) (name : String) :
      texts (pageLink page? name) = page?.toList.map toString := by
    cases page? <;> simp [pageLink]
  by_cases first : page = 0 <;> cases more : snapshot.hasNext <;>
    by_cases counting : snapshot.total = .counting <;>
    simp [pagination, link, Site.boardOf, first, more, counting]

theorem texts_boardPage (site : Site) (page : Nat) (snapshot : Snapshot) :
    texts (boardPage (site.boardOf page snapshot)) = site.texts page snapshot := by
  have refresh (refresh : Bool) : (if refresh then
      markup 1 "<meta http-equiv=\"refresh\" content=\"2\">" else blank 1).filterMap Piece.text? = [] := by
    cases refresh <;> rfl
  simp [boardPage, head, refresh, body, header, download, texts_content, texts_summary,
    texts_pagination, Site.texts]

end Texts

section Frames

theorem forall₂_of_length {α β : Type} {items : List α} {others : List β}
    (same : items.length = others.length) : List.Forall₂ (fun _ _ => True) items others := by
  induction items generalizing others with
  | nil => exact List.length_eq_zero_iff.mp same.symm ▸ .nil
  | cons item items ih =>
      obtain ⟨other, others, rfl⟩ := List.exists_cons_of_length_eq_add_one same.symm
      exact .cons trivial (ih (Nat.succ.inj same))

theorem isEmpty_of_length {α β : Type} {items : List α} {others : List β}
    (same : items.length = others.length) : items.isEmpty = others.isEmpty := by
  rw [Bool.eq_iff_iff, List.isEmpty_iff_length_eq_zero, List.isEmpty_iff_length_eq_zero, same]

theorem sameMarkup_urlList {urls others : List String} (same : urls.length = others.length) :
    SameMarkup (urlList urls) (urlList others) :=
  .append (.append rfl (.each (forall₂_of_length same) fun _ _ _ => rfl)) (.refl _)

theorem sameMarkup_table (titles : List String) {rows others : List HtmlLine}
    (same : SameMarkup rows others) : SameMarkup (table titles rows) (table titles others) :=
  .append (.append (.refl _) same) (.refl _)

theorem sameMarkup_failureTable {failures others : List FailureRow}
    (same : failures.length = others.length) :
    SameMarkup (failureTable failures) (failureTable others) :=
  .append (.append rfl (sameMarkup_table _
    (.each (forall₂_of_length same) fun _ _ _ => rfl))) (.refl _)

theorem sameMarkup_warningTable {warnings other : WarningView}
    (same : warnings.rows.length = other.rows.length) :
    SameMarkup (warningTable warnings) (warningTable other) :=
  .append (.append rfl (sameMarkup_table _
    (.each (forall₂_of_length same) fun _ _ _ => rfl))) (.refl _)

theorem sameMarkup_reportLines {report other : Report} (alike : report.Alike other) :
    SameMarkup (reportLines report.view) (reportLines other.view) := by
  have source : SameMarkup (report.view.sourceLink?.toList.map sourceLine)
      (other.view.sourceLink?.toList.map sourceLine) := by
    rw [List.map_eq_flatMap, List.map_eq_flatMap]
    exact .optional alike.source fun _ _ _ _ => rfl
  have rows : report.view.failures.length = other.view.failures.length := by
    simpa [Report.view, Report.failures] using alike.failures
  have any : (!report.view.failures.isEmpty) = !other.view.failures.isEmpty :=
    congrArg not (isEmpty_of_length rows)
  have warnings : SameMarkup (report.view.warnings?.toList.flatMap warningTable)
      (other.view.warnings?.toList.flatMap warningTable) := by
    have shown (report : Report) : report.view.warnings?.toList.flatMap warningTable =
        report.shownWarnings?.toList.flatMap fun summary => warningTable summary.view := by
      rw [Report.view]
      cases report.shownWarnings? <;> rfl
    have present := congrArg Option.isSome alike.warnings
    rw [Option.isSome_map, Option.isSome_map, ← Report.shownWarnings?_eq,
      ← Report.shownWarnings?_eq] at present
    rw [shown, shown]
    refine .optional present fun summary found changed foundChanged => sameMarkup_warningTable ?_
    have sample := alike.warnings
    rw [← Report.shownWarnings?_eq, ← Report.shownWarnings?_eq, found, foundChanged] at sample
    simpa [WarningSummary.view] using sample
  exact .append (.append (.append (.append (.append (.append (.append (.append rfl (.option source))
    (.refl _)) (sameMarkup_urlList alike.urls)) (.refl _))
    (.when any fun _ => sameMarkup_failureTable rows)) (.refl _)) (.option warnings)) (.refl _)

theorem sameMarkup_cardSection {item other : Item} (alike : item.status.Alike other.status) :
    SameMarkup (cardSection item.card) (cardSection other.card) := by
  obtain ⟨key, status⟩ := item
  obtain ⟨otherKey, otherStatus⟩ := other
  cases alike with
  | loading => exact .append (.append (.refl _) (.option (.option rfl))) (.refl _)
  | loaded reports =>
      exact .append (.append (.refl _) (.option (sameMarkup_reportLines reports))) (.refl _)
  | failed => exact .append (.append (.refl _) (.option (.option rfl))) (.refl _)

theorem each_cards (items : List Item) :
    each 2 (items.map Item.card) cardSection = each 2 items fun item => cardSection item.card := by
  rw [each, each, List.flatMap_map]

theorem sameMarkup_content {site other : Site} {page : Nat} {snapshot changed : Snapshot}
    (alike : snapshot.Alike changed) :
    SameMarkup (content (site.boardOf page snapshot)) (content (other.boardOf page changed)) := by
  have failed := alike.error
  have empty : (snapshot.items.isEmpty && !snapshot.loading) =
      (changed.items.isEmpty && !changed.loading) := by
    rw [isEmpty_of_length alike.items.length_eq, alike.loading]
  rw [content, content, empty_boardOf, empty_boardOf]
  simp only [Site.boardOf, Snapshot.cards]
  cases left : snapshot.error? <;> cases right : changed.error? <;>
    simp only [left, right, Option.isSome] at failed
  · rw [each_cards, each_cards]
    exact .append (.when empty fun _ => rfl)
      (.each alike.items fun _ _ items => sameMarkup_cardSection items)
  · cases failed
  · cases failed
  · rfl

theorem sameMarkup_pagination {site other : Site} {page : Nat} {snapshot changed : Snapshot}
    (alike : snapshot.Alike changed) :
    SameMarkup (pagination (site.boardOf page snapshot))
      (pagination (other.boardOf page changed)) := by
  have counting : decide (snapshot.total = .counting) = decide (changed.total = .counting) :=
    decide_eq_decide.mpr alike.counting
  have label (counting : Bool) (name other : String) :
      SameMarkup [line 3 ([.markup "<span class=\"page-label\">", .text name]
          ++ (if counting then [.markup " (counting reports&hellip;)"] else [])
          ++ [.markup "</span>"])]
        [line 3 ([.markup "<span class=\"page-label\">", .text other]
          ++ (if counting then [.markup " (counting reports&hellip;)"] else [])
          ++ [.markup "</span>"])] := by
    cases counting <;> rfl
  simp only [pagination, Site.boardOf, alike.next, counting]
  exact .append (.append (.append (.append (.refl _) (.refl _)) (label _ _ _)) (.refl _)) (.refl _)

theorem sameMarkup_summary {site other : Site} {page : Nat} {snapshot changed : Snapshot}
    (sites : site.Alike other) (alike : snapshot.Alike changed) :
    SameMarkup
      ((site.boardOf page snapshot).summary?.toList.flatMap
        (summaryLines (site.boardOf page snapshot).indexUrl?))
      ((other.boardOf page changed).summary?.toList.flatMap
        (summaryLines (other.boardOf page changed).indexUrl?)) := by
  have present : (indexSummary? snapshot.total.known? snapshot.sitemaps?).isSome =
      (indexSummary? changed.total.known? changed.sitemaps?).isSome := by
    have both (reports? sitemaps? : Option Nat) :
        (indexSummary? reports? sitemaps?).isSome = (reports?.isSome && sitemaps?.isSome) := by
      cases reports? <;> cases sitemaps? <;> rfl
    rw [both, both, alike.known, alike.sitemaps]
  have lines {index? other? : Option String} (summary another : String)
      (same : index?.isSome = other?.isSome) :
      SameMarkup (summaryLines index? summary) (summaryLines other? another) := by
    cases index? <;> cases other?
    · rfl
    · cases same
    · cases same
    · rfl
  exact .optional present fun summary _ another _ => lines summary another sites

theorem pending_of_alike {items others : List Item}
    (alike : List.Forall₂ (fun item other => item.status.Alike other.status) items others) :
    items.countP Item.isLoading = others.countP Item.isLoading := by
  induction alike with
  | nil => rfl
  | @cons item other _ _ pair _ ih =>
      have loading : item.isLoading = other.isLoading := by
        obtain ⟨key, status⟩ := item
        obtain ⟨otherKey, otherStatus⟩ := other
        cases pair <;> rfl
      rw [List.countP_cons, List.countP_cons, ih, loading]

theorem sameMarkup_boardPage {site other : Site} {page : Nat} {snapshot changed : Snapshot}
    (sites : site.Alike other) (alike : snapshot.Alike changed) :
    SameMarkup (boardPage (site.boardOf page snapshot))
      (boardPage (other.boardOf page changed)) := by
  have pending : snapshot.pending = changed.pending := pending_of_alike alike.items
  have refresh : (site.boardOf page snapshot).refresh = (other.boardOf page changed).refresh := by
    simp only [Site.boardOf, alike.loading, pending]
  rw [boardPage, boardPage, refresh]
  exact .append (.refl _) (.append (.append (.append (.append (.append (.append (.refl _)
    (.option (sameMarkup_summary sites alike))) (.refl _)) (sameMarkup_pagination alike))
    (.refl _)) (.option (sameMarkup_content alike))) (.refl _))

end Frames

end Html

end CrawlBoard
