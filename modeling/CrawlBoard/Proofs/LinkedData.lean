import CrawlBoard.Export.LinkedData
import CrawlBoard.Proofs.Json.Sorting
import CrawlBoard.Proofs.ReportText

namespace CrawlBoard

open Json (Reader Shape Tree Survives Ordered sortedMember)
open scoped List

theorem UrlFailure.distinct (failure : UrlFailure) : failure.tree.Distinct := by
  have names : (shape.fields.map Field.name).Nodup := by decide
  refine .object names ?_
  simp only [List.forall_mem_cons]
  exact ⟨.text _, .token rfl, .text _, .text _, .text _, fun _ member => nomatch member⟩

theorem ShaclWarning.distinct (warning : ShaclWarning) : warning.tree.Distinct := by
  have names : (shape.fields.map Field.name).Nodup := by decide
  refine .object names ?_
  simp only [List.forall_mem_cons]
  exact ⟨.text _, .text _, .text _, fun _ member => nomatch member⟩

theorem Json.Tree.Distinct.listMap {α : Type} (write : α → Tree)
    (distinct : ∀ a, (write a).Distinct) (items : List α) : (Tree.list (items.map write)).Distinct := by
  refine .list fun item member => ?_
  obtain ⟨a, _, rfl⟩ := List.mem_map.mp member
  exact distinct a

theorem WarningSummary.distinct (summary : WarningSummary) : summary.tree.Distinct := by
  have names : (shape.fields.map Field.name).Nodup := by decide
  refine .object names ?_
  simp only [List.forall_mem_cons]
  exact ⟨.token rfl, .listMap _ ShaclWarning.distinct _, fun _ member => nomatch member⟩

namespace Report

theorem member_names (report : Report) :
    report.members.map Prod.fst = (report.given.map Sigma.fst).map Field.name := by
  obtain ⟨_, _, failures?, _, _, _, warnings?, sourceLink?, lastModified?⟩ := report
  cases failures? <;> cases warnings? <;> cases sourceLink? <;> cases lastModified? <;> rfl

theorem names_distinct (report : Report) : (report.members.map Prod.fst).Nodup := by
  rw [member_names]
  exact report.given_distinct.map fields.name_injective

theorem id_absent (report : Report) : "@id" ∉ report.members.map Prod.fst := by
  rw [member_names]
  intro present
  obtain ⟨field, _, same⟩ := List.mem_map.mp present
  cases field <;> exact absurd same (by decide)

theorem distinct_member {α : Type} (field : Field) (write : α → Tree)
    (distinct : ∀ a, (write a).Distinct) (value? : Option α) :
    ∀ part ∈ member field write value?, part.2.Distinct := by
  intro part present
  obtain ⟨a, _, rfl⟩ := List.mem_map.mp present
  exact distinct a

theorem members_distinct (report : Report) : ∀ part ∈ report.members, part.2.Distinct := by
  simp only [members, List.forall_mem_append, List.forall_mem_cons]
  have text : ∀ text, (Tree.text text).Distinct := .text
  refine ⟨⟨⟨⟨⟨⟨.text _, .listMap _ text _, ?_⟩, ?_⟩, ⟨.token rfl, .token rfl, .token rfl, ?_⟩⟩, ?_⟩,
    ?_⟩, ?_⟩
  · exact fun _ member => nomatch member
  · exact distinct_member _ _ (fun failures => .listMap _ UrlFailure.distinct failures) _
  · exact fun _ member => nomatch member
  · exact distinct_member _ _ WarningSummary.distinct _
  · exact distinct_member _ _ text _
  · exact distinct_member _ _ text _

end Report

namespace LinkedData

section Node

variable (report : Report)

def nodeMembers : List (String × Tree) :=
  Json.insertMember "@id" (.text (sitemapId report.sitemap)) (Json.sortedMembers [] report.members)

theorem own_perm : Json.sortedMembers [] report.members ~ report.members.map sortedMember :=
  Json.sortedMembers_perm report.names_distinct

theorem own_lacks_id : "@id" ∉ (Json.sortedMembers [] report.members).map Prod.fst := by
  intro present
  have names := ((own_perm report).map Prod.fst).mem_iff.mp present
  rw [Json.map_fst_sortedMember] at names
  exact report.id_absent names

theorem nodeMembers_perm : nodeMembers report ~
    ("@id", .text (sitemapId report.sitemap)) :: Json.sortedMembers [] report.members :=
  Json.insertMember_perm _ (own_lacks_id report)

theorem nodeMembers_ordered : Ordered (nodeMembers report) :=
  Json.insertMember_ordered _ (own_lacks_id report) (Json.sortedMembers_ordered report.names_distinct)

variable {report}

theorem node_readAs (survives : Survives report.seconds) :
    (node report).ReadAs Report.shape.record report := by
  intro bytes writes
  have moved : nodeMembers report ~
      (("@id", .text (sitemapId report.sitemap)) :: report.members).map sortedMember :=
    (nodeMembers_perm report).trans ((own_perm report).cons _)
  have values : ∀ part ∈ ("@id", .text (sitemapId report.sitemap)) :: report.members,
      part.2.Distinct :=
    List.forall_mem_cons.mpr ⟨.text _, report.members_distinct⟩
  have plain := Tree.Writes.of_sortedMembers writes moved fun part present _ =>
    (values part present).writes
  have gives : Report.fields.GivesTree
      (("@id", .text (sitemapId report.sitemap)) :: report.members) report.given :=
    .unknown rfl (Tree.Textual.text _).passes (Report.gives survives)
  exact gives.readAs report.given_distinct report.finish_given bytes plain

end Node

def graphShape : Shape Unit (Option (List Report)) (List Report) where
  expected := "struct LinkedData"
  fields := [()]
  field? name := if name = "@graph" then some () else none
  name _ := "@graph"
  optional _ := false
  blank := none
  has _ draft := draft.isSome
  read _ _ := fun rest => (Json.list Report.shape.record rest).map fun (reports, rest) =>
    (some reports, rest)
  finish draft := match draft with
    | some reports => .ok reports
    | none => .error (.missingField "@graph")

def parse (document : Utf8.Bytes) : Except Json.Failure (List Report) :=
  Json.document graphShape.record document

def graphFields : graphShape.Fields where
  Content _ := List Report
  content _ := Json.list Report.shape.record
  put _ reports _ := some reports
  read_eq _ _ := rfl
  known _ := rfl
  open_blank _ := rfl
  has_put _ _ _ _ := rfl
  put_comm different := absurd rfl different

theorem template_eq :
    template = [("@context", (Tree.object context).sorted), ("@graph", .list [])] := by
  have different : ("@graph" : String) ≠ "@context" := by decide
  have behind : ¬ ("@graph" : String) < "@context" := by decide
  simp [template, Json.sortedMembers, Json.insertMember, different, behind, Json.Tree.sorted, Json.sortedItems]

theorem compose_eq (reports : List Report) : compose reports =
    .object [("@context", (Tree.object context).sorted), ("@graph", .list (reports.map node))] := by
  have different : ("@graph" : String) ≠ "@context" := by decide
  have behind : ¬ ("@graph" : String) < "@context" := by decide
  simp [compose, template_eq, Json.insertMember, different, behind]

theorem text_of_term {id : String} {keys : List (String × String)} {motive : Tree → Prop}
    (text : ∀ value, motive (.text value)) : ∀ member ∈ ("@id", Tree.text id) ::
      keys.map (fun (key, value) => (key, Tree.text value)), motive member.2 := by
  refine List.forall_mem_cons.mpr ⟨text id, fun member present => ?_⟩
  obtain ⟨key, _, rfl⟩ := List.mem_map.mp present
  exact text key.2

theorem distinct_term {id : String} {keys : List (String × String)}
    (names : ("@id" :: keys.map Prod.fst).Nodup) : (term id keys).Distinct := by
  refine .object ?_ (text_of_term .text)
  rw [List.map_cons, List.map_map]
  exact names

theorem textual_term (id : String) (keys : List (String × String)) : (term id keys).Textual :=
  .object (text_of_term .text)

theorem context_distinct : (Tree.object context).Distinct :=
  .object (by decide) (by simp [context, Tree.Distinct.text, distinct_term])

theorem context_textual : (Tree.object context).Textual :=
  .object (by simp [context, Tree.Textual.text, textual_term])

theorem compose_readAs {reports : List Report}
    (survive : ∀ report ∈ reports, Survives report.seconds) :
    (compose reports).ReadAs graphShape.record reports := by
  have graph := Tree.ReadAs.list node reports (fun report member => node_readAs (survive report member))
    fun _ _ => rfl
  have gives : graphFields.GivesTree
      [("@context", (Tree.object context).sorted), ("@graph", .list (reports.map node))]
      [⟨(), reports⟩] :=
    .unknown rfl (fun bytes writes => context_textual.passes bytes (context_distinct.writes writes)) <|
      .field () graph .nil
  rw [compose_eq]
  exact gives.readAs (List.nodup_singleton ()) rfl

theorem parse_compose {reports : List Report}
    (survive : ∀ report ∈ reports, Survives report.seconds) :
    parse (Utf8.encode (compose reports).compact) = .ok reports ∧
      parse (Utf8.encode (compose reports).pretty) = .ok reports := by
  have reads (bytes : Utf8.Bytes) (writes : (compose reports).Writes bytes) :
      parse bytes = .ok reports := by
    have whole := (compose_readAs survive bytes writes).document .nil .nil
    rwa [List.nil_append, List.append_nil] at whole
  exact ⟨reads _ (Tree.writes_bytes _), reads _ (Tree.writes_pretty _ 0)⟩

theorem parse_node {report : Report} (survives : Survives report.seconds) :
    Report.parse (Utf8.encode (node report).compact) = .ok report ∧
      Report.parse (Utf8.encode (node report).pretty) = .ok report := by
  have reads (bytes : Utf8.Bytes) (writes : (node report).Writes bytes) :
      Report.parse bytes = .ok report := by
    have whole := (node_readAs survives bytes writes).document .nil .nil
    rwa [List.nil_append, List.append_nil] at whole
  exact ⟨reads _ (Tree.writes_bytes _), reads _ (Tree.writes_pretty _ 0)⟩

/-- A document is the template with the nodes of the reports for its graph. A node has the members
of its report and an identifier, and is read as that report; the document is read as the list of
its reports, so that different lists have different documents. -/
theorem compose_keeps_reports (reports : List Report) :
    (template.map Prod.fst = ["@context", "@graph"] ∧
      compose reports = .object (template.map fun member =>
        if member.1 = "@graph" then (member.1, .list (reports.map node)) else member)) ∧
    (∀ report ∈ reports, ∃ members own, node report = .object members ∧
      report.tree.sorted = .object own ∧ own ~ report.members.map sortedMember ∧
      members ~ ("@id", .text (sitemapBase ++ report.sitemap)) :: own ∧ Ordered members ∧
      (Survives report.seconds →
        Report.parse (Utf8.encode (node report).compact) = .ok report ∧
        Report.parse (Utf8.encode (node report).pretty) = .ok report)) ∧
    ((∀ report ∈ reports, Survives report.seconds) →
      (parse (Utf8.encode (compose reports).compact) = .ok reports ∧
        parse (Utf8.encode (compose reports).pretty) = .ok reports) ∧
      ∀ others : List Report, (∀ report ∈ others, Survives report.seconds) → others ≠ reports →
        compose others ≠ compose reports ∧ (compose others).pretty ≠ (compose reports).pretty) := by
  refine ⟨⟨?_, ?_⟩, fun report _ => ?_, fun survive => ⟨parse_compose survive, ?_⟩⟩
  · rw [template_eq]
    rfl
  · rw [compose_eq, template_eq]
    rfl
  · exact ⟨nodeMembers report, Json.sortedMembers [] report.members, rfl, rfl, own_perm report,
      nodeMembers_perm report, nodeMembers_ordered report, parse_node⟩
  · intro others othersSurvive different
    have texts : (compose others).pretty ≠ (compose reports).pretty := by
      intro same
      have back := (parse_compose othersSurvive).2
      rw [same, (parse_compose survive).2] at back
      exact different (Except.ok.inj back).symm
    exact ⟨fun same => texts (congrArg Tree.pretty same), texts⟩

theorem two_reports_read_back :
    Survives Report.specimen.seconds ∧
      parse (Utf8.encode (compose [Report.specimen, { Report.specimen with sitemap := "b" }]).pretty)
        = .ok [Report.specimen, { Report.specimen with sitemap := "b" }] := by
  have survives : Survives Report.specimen.seconds := by decide +kernel
  have kept := (compose_keeps_reports
    [Report.specimen, { Report.specimen with sitemap := "b" }]).2.2 (by simpa using survives)
  exact ⟨survives, kept.1.2⟩

end LinkedData

end CrawlBoard
