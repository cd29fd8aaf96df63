import CrawlBoard.Proofs.Json.Repeated
import CrawlBoard.Proofs.ReportFields
import Mathlib.Logic.Relation
/-!
One report has many texts. The order of the members does not matter, nor which of a field's names
is used, nor what stands under unknown names, nor whether a list that is not there is `null` or left
out; this holds for the report, its failures, its warning summary and its warnings alike. Texts that
give a field twice are refused.
-/

namespace CrawlBoard

open Json
open Utf8 (Bytes)

namespace Json.Steady

theorem word16 : Steady Json.word16 := (natural 0xFFFF "u16").map UInt16.ofNat

theorem word64 (kind : String) : Steady (Json.word64 kind) :=
  (natural maxWord kind).map UInt64.ofNat

theorem listOrNull {α : Type} {read : Reader α} (steady : Steady read) :
    Steady (Json.listOrNull read) :=
  steady.list.optional.map fun items => items.getD []

end Json.Steady

theorem Json.Reads.listOrNull_null {α : Type} (read : Reader α) :
    Reads (Json.listOrNull read) nullBytes [] :=
  (Reads.null (Json.list read)).map fun items => items.getD []

namespace ShaclWarning

theorem steady_content (field : Field) : Steady (fields.content field) := by
  cases field with
  | url | message => exact .text
  | shacl => exact .variant _

theorem steady : Steady shape.record := .record (Shape.Fields.steady_read steady_content)

def Step : Bytes → Bytes → Prop := shape.Step (fun _ _ _ => False) fun _ => False

def Repeats : Bytes → Prop := shape.Repeats fun _ _ => False

theorem keeps : Keeps shape.record Step :=
  Shape.Fields.keeps_record (fun _ => .none _) (fun _ spare => spare.elim) steady_content

theorem refuses : Refuses shape.record Repeats :=
  Shape.Fields.refuses_record steady_content fun _ => .none _

end ShaclWarning

namespace UrlFailure

theorem steady_content (field : Field) : Steady (fields.content field) := by
  cases field with
  | url | message | shaclMessage => exact .text
  | status => exact .word16
  | shacl => exact .variant _

theorem steady : Steady shape.record := .record (Shape.Fields.steady_read steady_content)

def Step : Bytes → Bytes → Prop := shape.Step (fun _ _ _ => False) fun _ => False

def Repeats : Bytes → Prop := shape.Repeats fun _ _ => False

theorem keeps : Keeps shape.record Step :=
  Shape.Fields.keeps_record (fun _ => .none _) (fun _ spare => spare.elim) steady_content

theorem refuses : Refuses shape.record Repeats :=
  Shape.Fields.refuses_record steady_content fun _ => .none _

end UrlFailure

namespace WarningSummary

theorem steady_content (field : Field) : Steady (fields.content field) := by
  cases field with
  | total => exact .word64 _
  | sample => exact .listOrNull ShaclWarning.steady

theorem steady : Steady shape.record := .record (Shape.Fields.steady_read steady_content)

def FieldStep : Field → Bytes → Bytes → Prop
  | .total => fun _ _ => False
  | .sample => ElementStep ShaclWarning.Step

def Step : Bytes → Bytes → Prop := shape.Step FieldStep (· = .sample)

def FieldRepeats : Field → Bytes → Prop
  | .total => fun _ => False
  | .sample => ElementRepeats ShaclWarning.Repeats

def Repeats : Bytes → Prop := shape.Repeats FieldRepeats

theorem keeps_field (field : Field) : Keeps (fields.content field) (FieldStep field) := by
  cases field with
  | total => exact .none _
  | sample =>
      have list := ShaclWarning.keeps.list ShaclWarning.steady
      exact (list.optional ShaclWarning.steady.list).map ShaclWarning.steady.list.optional
        fun items => items.getD []

theorem spare_sample : fields.Spare .sample := by
  refine ⟨[], .listOrNull_null _, fun draft isOpen => ?_⟩
  obtain ⟨total, sample⟩ := draft
  cases sample with
  | none => rfl
  | some => cases isOpen

theorem keeps : Keeps shape.record Step :=
  Shape.Fields.keeps_record keeps_field (fun _ spare => spare ▸ spare_sample) steady_content

theorem refuses_field (field : Field) : Refuses (fields.content field) (FieldRepeats field) := by
  cases field with
  | total => exact .none _
  | sample =>
      have list := ShaclWarning.refuses.list ShaclWarning.steady
      exact (list.optional ShaclWarning.steady.list).map ShaclWarning.steady.list.optional
        fun items => items.getD []

theorem refuses : Refuses shape.record Repeats :=
  Shape.Fields.refuses_record steady_content refuses_field

end WarningSummary

namespace Report

theorem steady_content (field : Field) : Steady (fields.content field) := by
  cases field with
  | sitemap => exact .text
  | harvestedUrls => exact Steady.text.listOrNull
  | failures => exact UrlFailure.steady.list.optional
  | seconds => exact .float
  | sitesHarvested | sitesListed => exact .word64 _
  | warnings => exact WarningSummary.steady.optional
  | sourceLink | lastModified => exact Steady.text.optional

theorem steady : Steady shape.record := .record (Shape.Fields.steady_read steady_content)

def FieldStep : Field → Bytes → Bytes → Prop
  | .failures => ElementStep UrlFailure.Step
  | .warnings => WarningSummary.Step
  | _ => fun _ _ => False

/-- One change of a report's text that does not change the report. -/
def Step : Bytes → Bytes → Prop :=
  shape.Step FieldStep fun field => field = .harvestedUrls ∨ field = .failures

def FieldRepeats : Field → Bytes → Prop
  | .failures => ElementRepeats UrlFailure.Repeats
  | .warnings => WarningSummary.Repeats
  | _ => fun _ => False

def Repeats : Bytes → Prop := shape.Repeats FieldRepeats

theorem keeps_field (field : Field) : Keeps (fields.content field) (FieldStep field) := by
  cases field with
  | failures =>
      exact (UrlFailure.keeps.list UrlFailure.steady).optional UrlFailure.steady.list
  | warnings => exact WarningSummary.keeps.optional WarningSummary.steady
  | sitemap | harvestedUrls | seconds | sitesHarvested | sitesListed | sourceLink | lastModified =>
      exact .none _

theorem spare_harvestedUrls : fields.Spare .harvestedUrls := by
  refine ⟨[], .listOrNull_null _, fun draft isOpen => ?_⟩
  obtain ⟨_, harvestedUrls⟩ := draft
  cases harvestedUrls with
  | none => rfl
  | some => cases isOpen

theorem spare_failures : fields.Spare .failures := by
  refine ⟨none, .null _, fun draft isOpen => ?_⟩
  obtain ⟨_, _, failures⟩ := draft
  cases failures with
  | none => rfl
  | some => cases isOpen

theorem keeps : Keeps shape.record Step := by
  refine Shape.Fields.keeps_record keeps_field (fun field spare => ?_) steady_content
  rcases spare with rfl | rfl
  · exact spare_harvestedUrls
  · exact spare_failures

theorem refuses_field (field : Field) : Refuses (fields.content field) (FieldRepeats field) := by
  cases field with
  | failures =>
      exact (UrlFailure.refuses.list UrlFailure.steady).optional UrlFailure.steady.list
  | warnings => exact WarningSummary.refuses.optional WarningSummary.steady
  | sitemap | harvestedUrls | seconds | sitesHarvested | sitesListed | sourceLink | lastModified =>
      exact .none _

theorem refuses : Refuses shape.record Repeats :=
  Shape.Fields.refuses_record steady_content refuses_field

theorem reads_of_parse {bytes : Bytes} (wellFormed : WellFormed bytes) {lead trail : Bytes}
    (leads : Blanks lead) (trails : Blanks trail) {report : Report}
    (parsed : parse (lead ++ (bytes ++ trail)) = .ok report) : Reads shape.record bytes report := by
  obtain ⟨⟨given, left⟩, shown, same⟩ := bind_ok parsed
  have reads := steady wellFormed leads (endsValue_blanks trails) shown
  cases blanks : skipBlanks left with
  | nil =>
      simp only [blanks] at same
      cases same
      exact reads
  | cons byte rest =>
      simp only [blanks] at same
      cases same

theorem reads_restated {bytes restated : Bytes} (steps : Relation.ReflTransGen Step bytes restated)
    {report : Report} (reads : Reads shape.record bytes report) :
    Reads shape.record restated report := by
  induction steps with
  | refl => exact reads
  | tail _ change ih => exact keeps.reads change ih

/-- Every text that a report's text can be restated as is parsed to the same report. Texts that give
a field twice are parsed to none, whatever the order of their members. -/
theorem parse_restated :
    (∀ ⦃bytes restated : Bytes⦄, WellFormed bytes → Relation.ReflTransGen Step bytes restated →
      ∀ ⦃lead trail : Bytes⦄, Blanks lead → Blanks trail →
      ∀ ⦃report⦄, parse (lead ++ (bytes ++ trail)) = .ok report →
      ∀ ⦃before after : Bytes⦄, Blanks before → Blanks after →
        parse (before ++ (restated ++ after)) = .ok report) ∧
    (∀ ⦃bytes : Bytes⦄, Repeats bytes → ∀ ⦃lead trail : Bytes⦄, Blanks lead → Blanks trail →
      ∃ failure, parse (lead ++ (bytes ++ trail)) = .error failure) := by
  constructor
  · intro bytes restated wellFormed steps lead trail leads trails report parsed before after
      befores afters
    have reads := reads_restated steps (reads_of_parse wellFormed leads trails parsed)
    exact reads.document befores afters
  · intro bytes repeated lead trail leads trails
    cases parsed : parse (lead ++ (bytes ++ trail)) with
    | error failure => exact ⟨failure, rfl⟩
    | ok report =>
        have reads := reads_of_parse (refuses.wellFormed repeated) leads trails parsed
        exact absurd reads (refuses.refuses repeated report)

def short : Report :=
  ⟨"s", [], some [⟨"u", 0, "", .skipped, ""⟩], 0.0, 0, 0, none, none, none⟩

def shortMembers : List (String × Tree) :=
  [("CrawlFailures", .list [.object [("Url", .text "u")]]), ("SitemapName", .text "s")]

def otherFailures : Tree := .list [.object [("url", .text "u")]]

def otherMembers : List (String × Tree) :=
  [("SuccessfulUrls", .null), ("extra", .text "x"), ("name", .text "s"),
    ("CrawlFailures", otherFailures)]

def twiceNamed : List (String × Tree) := [("name", .text "s"), ("SitemapName", .text "s")]

theorem readAs_short : (Tree.object shortMembers).ReadAs shape.record short := by
  have url : UrlFailure.fields.GivesTree _ _ := .field UrlFailure.Field.url (.text "u") .nil
  have failure : (Tree.object [("Url", .text "u")]).ReadAs UrlFailure.shape.record
      ⟨"u", 0, "", .skipped, ""⟩ := url.readAs (by decide) rfl
  have failures := (Tree.ReadAs.list (fun _ => .object [("Url", .text "u")])
    [(⟨"u", 0, "", .skipped, ""⟩ : UrlFailure)]
    (fun item present => List.mem_singleton.mp present ▸ failure) fun _ _ => rfl).optional rfl
  have gives : fields.GivesTree _ _ :=
    .field Field.failures failures <| .field Field.sitemap (.text "s") .nil
  exact gives.readAs (by decide) rfl

theorem failures_step : ElementStep UrlFailure.Step
    (Tree.list [.object [("Url", .text "u")]]).bytes otherFailures.bytes := by
  have text : ∀ member ∈ [("Url", Tree.text "u")], WellFormed member.2.bytes :=
    List.forall_mem_singleton.mpr (Tree.wellFormed_text "u")
  have step : UrlFailure.Step _ _ :=
    Shape.Step.compact [("Url", .text "u")] [("url", .text "u")] text (.rename rfl rfl rfl)
  exact .list (List.forall_mem_singleton.mpr (Tree.wellFormed_object text)) (Tree.listOf [_])
    (.head step) (Tree.listOf [.object [("url", .text "u")]])

theorem wellFormed_failures (name : String) :
    WellFormed (Tree.list [.object [(name, .text "u")]]).bytes :=
  Tree.wellFormed_list (List.forall_mem_singleton.mpr
    (Tree.wellFormed_object (List.forall_mem_singleton.mpr (Tree.wellFormed_text "u"))))

theorem values_short : ∀ member ∈ shortMembers, WellFormed member.2.bytes := by
  simp [shortMembers, wellFormed_failures, Tree.wellFormed_text]

theorem steps_short : Relation.ReflTransGen Step (Tree.object shortMembers).bytes
    (Tree.object otherMembers).bytes := by
  let sitemap (name : String) : String × Tree := (name, .text "s")
  let failures : String × Tree := ("CrawlFailures", otherFailures)
  let extra : String × Tree := ("extra", .text "x")
  have text := Tree.wellFormed_text
  have list : WellFormed otherFailures.bytes := wellFormed_failures "url"
  have inside : Step _ _ :=
    Shape.Step.compact shortMembers [failures, sitemap "SitemapName"] values_short
      (.change rfl rfl failures_step)
  have moved : Step _ _ :=
    Shape.Step.compact [failures, sitemap "SitemapName"] [sitemap "SitemapName", failures]
      (by simp [failures, sitemap, list, text]) (.move (.swap _ _ _))
  have renamed : Step _ _ :=
    Shape.Step.compact [sitemap "SitemapName", failures] [sitemap "name", failures]
      (by simp [failures, sitemap, list, text]) (.rename rfl rfl rfl)
  have added : Step _ _ :=
    Shape.Step.compact [sitemap "name", failures] [extra, sitemap "name", failures]
      (by simp [failures, sitemap, list, text]) (.add rfl (text "x"))
  have null : Step _ _ :=
    Shape.Step.compact [extra, sitemap "name", failures] otherMembers
      (by simp [extra, failures, sitemap, list, text])
      (.addNull rfl (.inl rfl) Tree.bytes_null (by decide))
  exact ((((Relation.ReflTransGen.single inside).tail moved).tail renamed).tail added).tail null

theorem repeats_twiceNamed : Repeats (Tree.object twiceNamed).bytes := by
  have values : ∀ member ∈ twiceNamed, WellFormed member.2.bytes := by
    simp [twiceNamed, Tree.wellFormed_text]
  exact .members (List.forall_mem_map.mpr values) (Tree.objectOf twiceNamed) (.refl _)
    (rfl : shape.field? "name" = some .sitemap) rfl

theorem short_report_restated :
    parse (Tree.object shortMembers).bytes = .ok short ∧
      parse (Tree.object otherMembers).bytes = .ok short ∧
      ∃ failure, parse (Tree.object twiceNamed).bytes = .error failure := by
  have parsed : parse ([] ++ ((Tree.object shortMembers).bytes ++ [])) = .ok short :=
    (readAs_short _ (Tree.writes_bytes _)).document .nil .nil
  have other := parse_restated.1 (Tree.wellFormed_object values_short) steps_short .nil .nil parsed
    .nil .nil
  have twice := parse_restated.2 repeats_twiceNamed .nil .nil
  rw [List.nil_append, List.append_nil] at parsed other twice
  exact ⟨parsed, other, twice⟩

end Report

end CrawlBoard
