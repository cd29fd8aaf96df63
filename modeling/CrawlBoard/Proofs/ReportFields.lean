import CrawlBoard.Proofs.Json.Fields
import CrawlBoard.Report.Document

namespace CrawlBoard

open Json (Reads Reader Tree)

namespace Json

namespace Tree.ReadAs

theorem word16 (value : UInt16) : (Tree.natural value.toNat).ReadAs Json.word16 value := by
  intro bytes writes lead rest leads ends
  have fits : value.toNat ≤ 0xFFFF := Nat.le_of_lt_succ value.toNat_lt
  have read := natural "u16" fits (by decide) bytes writes lead rest leads ends
  simp only [Json.word16, read, bind, Except.bind, UInt16.ofNat_toNat]

theorem word64 (kind : String) (value : UInt64) :
    (Tree.natural value.toNat).ReadAs (Json.word64 kind) value := by
  intro bytes writes lead rest leads ends
  have fits : value.toNat ≤ maxWord := Nat.le_of_lt_succ value.toNat_lt
  have read := natural kind fits (Nat.le_refl _) bytes writes lead rest leads ends
  simp only [Json.word64, read, bind, Except.bind, UInt64.ofNat_toNat]

theorem listOrNull {α : Type} {read : Reader α} (write : α → Tree) (items : List α)
    (readAs : ∀ item ∈ items, (write item).ReadAs read item)
    (bracketed : ∀ item ∈ items, (write item).isToken = false) :
    (Tree.list (items.map write)).ReadAs (Json.listOrNull read) items := by
  intro bytes writes lead rest leads ends
  have whole := (list write items readAs bracketed).optional rfl bytes writes lead rest leads ends
  simp only [Json.listOrNull, whole, bind, Except.bind, Option.getD_some]

end Tree.ReadAs

/-- The numeral that is written for a double is read as that double. -/
def Survives (x : Float) : Prop :=
  Json.float (Utf8.encode (Json.realText x)) = .ok (x, [])

instance (x : Float) : Decidable (Survives x) :=
  decidable_of_iff ((Json.float (Utf8.encode (Json.realText x))).toOption = some (x, [])) <| by
    unfold Survives
    cases Json.float (Utf8.encode (Json.realText x)) <;> simp [Except.toOption]

theorem Survives.reads {x : Float} (survives : Survives x) :
    Reads Json.float (Tree.real x).bytes x := by
  intro lead rest leads ends
  rw [Tree.bytes, Tree.compact]
  unfold Survives Json.float at survives
  cases read : Json.number "f64" (Utf8.encode (Json.realText x)) with
  | error failure =>
      rw [read] at survives
      cases survives
  | ok result =>
      obtain ⟨number, left⟩ := result
      rw [read] at survives
      cases survives
      have whole := Json.number_append read ends.endsNumber
      rw [Json.number] at whole
      simp only [Json.float, Json.number, Json.value_lead _ leads, whole, bind, Except.bind]

theorem Survives.readAs {x : Float} (survives : Survives x) :
    (Tree.real x).ReadAs Json.float x := by
  intro bytes writes
  rw [writes.token_bytes rfl]
  exact survives.reads

end Json

open Json

namespace ShaclStatus

theorem readAs (status : ShaclStatus) : (Tree.text status.name).ReadAs reader status :=
  .variant (by cases status <;> rfl)

end ShaclStatus

namespace UrlFailure

def fields : shape.Fields where
  Content
    | .url | .message | .shaclMessage => String
    | .status => UInt16
    | .shacl => ShaclStatus
  content
    | .url | .message | .shaclMessage => Json.text
    | .status => Json.word16
    | .shacl => ShaclStatus.reader
  put
    | .url, url, draft => { draft with url := some url }
    | .status, status, draft => { draft with status := some status }
    | .message, text, draft => { draft with message := some text }
    | .shacl, shacl, draft => { draft with shacl := some shacl }
    | .shaclMessage, text, draft => { draft with shaclMessage := some text }
  read_eq field _ := by cases field <;> rfl
  known field := by cases field <;> rfl
  open_blank field := by cases field <;> rfl
  has_put field other _ _ := by cases field <;> cases other <;> rfl
  put_comm {field other} different _ _ _ := by
    cases field <;> cases other <;> first | rfl | exact absurd rfl different

def given (failure : UrlFailure) : List fields.Given :=
  [⟨.url, failure.url⟩, ⟨.status, failure.status⟩, ⟨.message, failure.message⟩,
    ⟨.shacl, failure.shacl⟩, ⟨.shaclMessage, failure.shaclMessage⟩]

theorem readAs (failure : UrlFailure) : failure.tree.ReadAs shape.record failure := by
  have gives : fields.GivesTree _ failure.given :=
    .field Field.url (.text _) <| .field Field.status (.word16 _) <| .field Field.message (.text _) <|
    .field Field.shacl failure.shacl.readAs <| .field Field.shaclMessage (.text _) .nil
  have distinct : shape.fields.Nodup := by decide
  exact gives.readAs distinct rfl

end UrlFailure

namespace ShaclWarning

def fields : shape.Fields where
  Content
    | .url | .message => String
    | .shacl => ShaclStatus
  content
    | .url | .message => Json.text
    | .shacl => ShaclStatus.reader
  put
    | .url, url, draft => { draft with url := some url }
    | .shacl, shacl, draft => { draft with shacl := some shacl }
    | .message, text, draft => { draft with message := some text }
  read_eq field _ := by cases field <;> rfl
  known field := by cases field <;> rfl
  open_blank field := by cases field <;> rfl
  has_put field other _ _ := by cases field <;> cases other <;> rfl
  put_comm {field other} different _ _ _ := by
    cases field <;> cases other <;> first | rfl | exact absurd rfl different

def given (warning : ShaclWarning) : List fields.Given :=
  [⟨.url, warning.url⟩, ⟨.shacl, warning.shacl⟩, ⟨.message, warning.message⟩]

theorem readAs (warning : ShaclWarning) : warning.tree.ReadAs shape.record warning := by
  have gives : fields.GivesTree _ warning.given :=
    .field Field.url (.text _) <| .field Field.shacl warning.shacl.readAs <| .field Field.message (.text _) .nil
  have distinct : shape.fields.Nodup := by decide
  exact gives.readAs distinct rfl

end ShaclWarning

namespace WarningSummary

def fields : shape.Fields where
  Content
    | .total => UInt64
    | .sample => List ShaclWarning
  content
    | .total => Json.word64 "usize"
    | .sample => Json.listOrNull ShaclWarning.shape.record
  put
    | .total, total, draft => { draft with total := some total }
    | .sample, sample, draft => { draft with sample := some sample }
  read_eq field _ := by cases field <;> rfl
  known field := by cases field <;> rfl
  open_blank field := by cases field <;> rfl
  has_put field other _ _ := by cases field <;> cases other <;> rfl
  put_comm {field other} different _ _ _ := by
    cases field <;> cases other <;> first | rfl | exact absurd rfl different

def given (summary : WarningSummary) : List fields.Given :=
  [⟨.total, summary.total⟩, ⟨.sample, summary.sample⟩]

theorem readAs (summary : WarningSummary) : summary.tree.ReadAs shape.record summary := by
  have sample := Tree.ReadAs.listOrNull ShaclWarning.tree summary.sample
    (fun warning _ => warning.readAs) fun _ _ => rfl
  have gives : fields.GivesTree _ summary.given :=
    .field Field.total (.word64 _ _) <| .field Field.sample sample .nil
  have distinct : shape.fields.Nodup := by decide
  exact gives.readAs distinct rfl

end WarningSummary

namespace Report

def fields : shape.Fields where
  Content
    | .sitemap => String
    | .harvestedUrls => List String
    | .failures => Option (List UrlFailure)
    | .seconds => Float
    | .sitesHarvested | .sitesListed => UInt64
    | .warnings => Option WarningSummary
    | .sourceLink | .lastModified => Option String
  content
    | .sitemap => Json.text
    | .harvestedUrls => Json.listOrNull Json.text
    | .failures => Json.optional (Json.list UrlFailure.shape.record)
    | .seconds => Json.float
    | .sitesHarvested | .sitesListed => Json.word64 "u64"
    | .warnings => Json.optional WarningSummary.shape.record
    | .sourceLink | .lastModified => Json.optional Json.text
  put
    | .sitemap, name, draft => { draft with sitemap := some name }
    | .harvestedUrls, urls, draft => { draft with harvestedUrls := some urls }
    | .failures, failures, draft => { draft with failures := some failures }
    | .seconds, seconds, draft => { draft with seconds := some seconds }
    | .sitesHarvested, count, draft => { draft with sitesHarvested := some count }
    | .sitesListed, count, draft => { draft with sitesListed := some count }
    | .warnings, warnings, draft => { draft with warnings := some warnings }
    | .sourceLink, link, draft => { draft with sourceLink := some link }
    | .lastModified, stamp, draft => { draft with lastModified := some stamp }
  read_eq field _ := by cases field <;> rfl
  known field := by cases field <;> rfl
  open_blank field := by cases field <;> rfl
  has_put field other _ _ := by cases field <;> cases other <;> rfl
  put_comm {field other} different _ _ _ := by
    cases field <;> cases other <;> first | rfl | exact absurd rfl different

def given (report : Report) : List fields.Given :=
  [⟨.sitemap, report.sitemap⟩, ⟨.harvestedUrls, report.harvestedUrls⟩]
  ++ report.failures?.toList.map (fun failures => ⟨.failures, some failures⟩)
  ++ [⟨.seconds, report.seconds⟩, ⟨.sitesHarvested, report.sitesHarvested⟩,
    ⟨.sitesListed, report.sitesListed⟩]
  ++ report.warnings?.toList.map (fun warnings => ⟨.warnings, some warnings⟩)
  ++ report.sourceLink?.toList.map (fun link => ⟨.sourceLink, some link⟩)
  ++ report.lastModified?.toList.map (fun stamp => ⟨.lastModified, some stamp⟩)

theorem given_distinct (report : Report) : (report.given.map Sigma.fst).Nodup := by
  obtain ⟨_, _, failures?, _, _, _, warnings?, sourceLink?, lastModified?⟩ := report
  cases failures? <;> cases warnings? <;> cases sourceLink? <;> cases lastModified? <;>
    simp [given]

theorem finish_given (report : Report) :
    Draft.finish (fields.fill shape.blank report.given) = .ok report := by
  obtain ⟨_, _, failures?, _, _, _, warnings?, sourceLink?, lastModified?⟩ := report
  cases failures? <;> cases warnings? <;> cases sourceLink? <;> cases lastModified? <;> rfl

variable {report : Report} (survives : Survives report.seconds)
include survives

theorem gives : fields.GivesTree report.members report.given := by
  have urls := Tree.ReadAs.listOrNull Tree.text report.harvestedUrls (fun url _ => .text url)
    fun _ _ => rfl
  have failures (failures : List UrlFailure) :=
    (Tree.ReadAs.list UrlFailure.tree failures (fun failure _ => failure.readAs)
      fun _ _ => rfl).optional rfl
  have text (text : String) := (Tree.ReadAs.text text).optional rfl
  have named : fields.GivesTree _ _ := .field Field.sitemap (.text report.sitemap) <|
    .field Field.harvestedUrls urls .nil
  have counted : fields.GivesTree _ _ := .field Field.seconds survives.readAs <|
    .field Field.sitesHarvested (.word64 "u64" report.sitesHarvested) <|
    .field Field.sitesListed (.word64 "u64" report.sitesListed) .nil
  exact ((((named.append (.option Field.failures _ some failures report.failures?)).append
    counted).append
    (.option Field.warnings _ some (fun warnings => warnings.readAs.optional rfl) report.warnings?)).append
    (.option Field.sourceLink _ some text report.sourceLink?)).append
    (.option Field.lastModified _ some text report.lastModified?)

theorem readAs : report.tree.ReadAs shape.record report :=
  (gives survives).readAs report.given_distinct report.finish_given

end Report

end CrawlBoard
