import CrawlBoard.Proofs.Encoding
import CrawlBoard.Proofs.Renderings
import Mathlib.Data.List.Induction

namespace CrawlBoard

open Utf8 (Bytes)

def Report.line (reports : List Report) : Bytes := Utf8.encode (Report.listTree reports).compact

theorem Report.line_eq_iff {reports others : List Report} :
    Report.line reports = Report.line others ↔
      (Report.listTree reports).compact = (Report.listTree others).compact := by
  refine ⟨fun same => ?_, congrArg Utf8.encode⟩
  have texts := congrArg Utf8.decode? same
  rw [line, line, Utf8.decode?_encode, Utf8.decode?_encode] at texts
  exact Option.some.inj texts

def Rendering.ofReports (format : ExportFormat) (reports : List Report) : Rendering :=
  ⟨(Report.listTree reports).compact, format.render reports⟩

theorem Rendering.ofReports_congr (format : ExportFormat) {reports others : List Report}
    (same : (Report.listTree reports).compact = (Report.listTree others).compact) :
    ofReports format reports = ofReports format others := by
  rw [ofReports, ofReports, same, format.render_of_compact same]

abbrev ExportCall := ExportFormat × List Report

/-- The reports of the latest call of a format. -/
def latest? (format : ExportFormat) (calls : List ExportCall) : Option (List Report) :=
  (calls.filter (·.1 = format)).getLast?.map Prod.snd

theorem latest?_concat (format : ExportFormat) (calls : List ExportCall) (call : ExportCall) :
    latest? format (calls ++ [call]) =
      if call.1 = format then some call.2 else latest? format calls := by
  by_cases same : call.1 = format <;> simp [latest?, List.filter_append, same]

theorem latest?_filter (format : ExportFormat) (calls : List ExportCall) :
    latest? format (calls.filter (·.1 = format)) = latest? format calls := by
  rw [latest?, latest?, List.filter_filter]
  simp only [Bool.and_self]

theorem latest?_eq_some_iff {format : ExportFormat} {calls : List ExportCall} {reports : List Report} :
    latest? format calls = some reports ↔ ∃ earlier later,
      calls = earlier ++ (format, reports) :: later ∧ ∀ call ∈ later, call.1 ≠ format := by
  constructor
  · intro found
    obtain ⟨call, last, rfl⟩ := Option.map_eq_some_iff.mp found
    obtain ⟨own, split⟩ := List.getLast?_eq_some_iff.mp last
    obtain ⟨earlier, later, rfl, _, behind⟩ := List.filter_eq_append_iff.mp split
    obtain ⟨between, after, rfl, others, same, none⟩ := List.filter_eq_cons_iff.mp behind
    obtain rfl := of_decide_eq_true same
    refine ⟨earlier ++ between, after, by rw [List.append_assoc], fun other member => ?_⟩
    simpa using List.filter_eq_nil_iff.mp none other member
  · rintro ⟨earlier, later, rfl, behind⟩
    have none : later.filter (·.1 = format) = [] :=
      List.filter_eq_nil_iff.mpr fun call member => by simpa using behind call member
    simp [latest?, List.filter_append, none]

namespace ExportCache

def after (calls : List ExportCall) : ExportCache :=
  calls.foldl (fun cache call => (cache.fetch call.1 call.2).2) {}

section Fetch

variable {cache : ExportCache} {format : ExportFormat}

theorem fetch_of_same {rendering : Rendering} (kept : cache.get? format = some rendering)
    {reports : List Report} (same : rendering.source = (Report.listTree reports).compact) :
    cache.fetch format reports = (⟨rendering.body, true⟩, cache) := by
  have found : ((cache.get? format).filter fun rendering =>
      rendering.source = (Report.listTree reports).compact) = some rendering := by
    rw [kept]
    exact Option.filter_some_pos (decide_eq_true same)
  simp only [fetch, found]

theorem fetch_of_new {reports : List Report}
    (new : ∀ rendering ∈ cache.get? format,
      rendering.source ≠ (Report.listTree reports).compact) :
    cache.fetch format reports =
      (⟨format.render reports, false⟩, cache.put format (.ofReports format reports)) := by
  have missing : ((cache.get? format).filter fun rendering =>
      rendering.source = (Report.listTree reports).compact) = none :=
    Option.filter_eq_none_iff.mpr fun rendering kept => by simpa using new rendering kept
  simp only [fetch, missing]
  rfl

theorem fetch_of_kept {kept? : Option (List Report)}
    (kept : cache.get? format = kept?.map (.ofReports format)) (reports : List Report) :
    (cache.fetch format reports).1 = ⟨format.render reports,
        kept?.any fun others => Report.line others = Report.line reports⟩ ∧
      ∀ other, (cache.fetch format reports).2.get? other =
        if other = format then some (.ofReports format reports) else cache.get? other := by
  by_cases hit : ∃ others, kept? = some others ∧ Report.line others = Report.line reports
  · obtain ⟨others, rfl, same⟩ := hit
    have texts := Report.line_eq_iff.mp same
    have body := Rendering.ofReports_congr format texts
    rw [fetch_of_same kept texts, Option.any_some, decide_eq_true same]
    refine ⟨by rw [body]; rfl, fun other => ?_⟩
    split
    · rename_i own
      rw [own, kept, Option.map_some, body]
    · rfl
  · have miss : kept?.any (fun others => Report.line others = Report.line reports) = false := by
      rw [Option.any_eq_false]
      exact fun others found => decide_eq_false fun same => hit ⟨others, found, same⟩
    rw [fetch_of_new, miss]
    · exact ⟨rfl, fun other => get?_put cache format other _⟩
    · intro rendering found texts
      rw [kept] at found
      obtain ⟨others, known, rfl⟩ := Option.map_eq_some_iff.mp found
      exact hit ⟨others, known, Report.line_eq_iff.mpr texts⟩

end Fetch

theorem get?_after (calls : List ExportCall) (format : ExportFormat) :
    (after calls).get? format = (latest? format calls).map (.ofReports format) := by
  induction calls using List.reverseRecOn generalizing format with
  | nil => cases format <;> rfl
  | append_singleton calls call ih =>
      rw [after, List.foldl_append, latest?_concat]
      refine ((fetch_of_kept (ih call.1) call.2).2 format).trans ?_
      by_cases same : call.1 = format
      · rw [if_pos same, if_pos same.symm, same]
        rfl
      · rw [if_neg same, if_neg (Ne.symm same)]
        exact ih format

theorem answer_after (calls : List ExportCall) (format : ExportFormat) (reports : List Report) :
    ((after calls).fetch format reports).1 = ⟨format.render reports,
      (latest? format calls).any fun others => Report.line others = Report.line reports⟩ :=
  (fetch_of_kept (get?_after calls format) reports).1

end ExportCache

/-- A cache that keeps a mark of the line of the reports, and the rendering, for each format. -/
abbrev MarkedCache := ExportFormat → Option (UInt64 × String)

namespace MarkedCache

variable (mark : Bytes → UInt64)

def fetch (cache : MarkedCache) (format : ExportFormat) (reports : List Report) :
    ExportCache.Answer × MarkedCache :=
  let found := mark (Report.line reports)
  match (cache format).filter fun kept => kept.1 = found with
  | some kept => (⟨kept.2, true⟩, cache)
  | none =>
      let body := format.render reports
      (⟨body, false⟩, fun other => if other = format then some (found, body) else cache other)

def after (calls : List ExportCall) : MarkedCache :=
  calls.foldl (fun cache call => (fetch mark cache call.1 call.2).2) fun _ => none

def ofCache (cache : ExportCache) : MarkedCache := fun format =>
  (cache.get? format).map fun kept => (mark (Utf8.encode kept.source), kept.body)

variable {mark}

theorem ofCache_put (cache : ExportCache) (format : ExportFormat) (reports : List Report) :
    ofCache mark (cache.put format (.ofReports format reports)) = fun other =>
      if other = format then some (mark (Report.line reports), format.render reports)
      else ofCache mark cache other := by
  funext other
  rw [ofCache, ExportCache.get?_put]
  split <;> rfl

theorem fetch_ofCache {cache : ExportCache} {format : ExportFormat} {reports : List Report}
    (apart : ∀ kept ∈ cache.get? format,
      mark (Utf8.encode kept.source) = mark (Report.line reports) →
        kept.source = (Report.listTree reports).compact) :
    fetch mark (ofCache mark cache) format reports =
      ((cache.fetch format reports).1, ofCache mark (cache.fetch format reports).2) := by
  by_cases hit : ∃ kept ∈ cache.get? format, kept.source = (Report.listTree reports).compact
  · obtain ⟨rendering, kept, same⟩ := hit
    have marked : ((ofCache mark cache format).filter fun kept => kept.1 = mark (Report.line reports)) =
        some (mark (Utf8.encode rendering.source), rendering.body) := by
      rw [ofCache, Option.mem_def.mp kept]
      have own : mark (Utf8.encode rendering.source) = mark (Report.line reports) := by
        rw [same, Report.line]
      exact Option.filter_some_pos (decide_eq_true own)
    rw [ExportCache.fetch_of_same kept same]
    simp only [fetch, marked]
  · have missing : ((ofCache mark cache format).filter fun kept =>
        kept.1 = mark (Report.line reports)) = none := by
      refine Option.filter_eq_none_iff.mpr fun pair found same => ?_
      obtain ⟨rendering, kept, rfl⟩ := Option.map_eq_some_iff.mp found
      exact hit ⟨rendering, kept, apart rendering kept (of_decide_eq_true same)⟩
    rw [ExportCache.fetch_of_new fun rendering kept same => hit ⟨rendering, kept, same⟩,
      ofCache_put]
    simp only [fetch, missing]

/-- No two lines of the calls that differ have one mark. -/
def Apart (mark : Bytes → UInt64) (calls : List ExportCall) : Prop :=
  ∀ call ∈ calls, ∀ other ∈ calls,
    mark (Report.line call.2) = mark (Report.line other.2) →
      Report.line call.2 = Report.line other.2

theorem Apart.of_concat {calls : List ExportCall} {call : ExportCall}
    (apart : Apart mark (calls ++ [call])) : Apart mark calls :=
  fun one member other memberToo =>
    apart one (List.mem_append_left _ member) other (List.mem_append_left _ memberToo)

theorem Apart.fetch_after {calls : List ExportCall} {format : ExportFormat} {reports : List Report}
    (apart : Apart mark (calls ++ [(format, reports)])) :
    MarkedCache.fetch mark (ofCache mark (ExportCache.after calls)) format reports =
      (((ExportCache.after calls).fetch format reports).1,
        ofCache mark ((ExportCache.after calls).fetch format reports).2) := by
  refine fetch_ofCache fun kept found same => ?_
  rw [ExportCache.get?_after] at found
  obtain ⟨others, latest, rfl⟩ := Option.map_eq_some_iff.mp found
  obtain ⟨earlier, later, rfl, -⟩ := latest?_eq_some_iff.mp latest
  exact Report.line_eq_iff.mp (apart (format, others) (by simp) (format, reports) (by simp) same)

theorem Apart.after_eq {calls : List ExportCall} (apart : Apart mark calls) :
    MarkedCache.after mark calls = ofCache mark (ExportCache.after calls) := by
  induction calls using List.reverseRecOn with
  | nil => exact funext fun format => by cases format <;> rfl
  | append_singleton calls call ih =>
      obtain ⟨format, reports⟩ := call
      have step := congrArg Prod.snd (Apart.fetch_after apart)
      rw [← ih apart.of_concat] at step
      rw [MarkedCache.after, ExportCache.after, List.foldl_append, List.foldl_append]
      exact step

end MarkedCache

namespace ExportCache

/-- Whatever has been called before, a call is answered with a new rendering of its own reports,
and a kept one is handed out exactly when the latest call of the format had the same line; calls of
the other format make no difference. Marks of 64 bits in place of the lines answer alike while no
two lines of the calls share one. -/
theorem calls_answered_like_new (calls : List ExportCall) (format : ExportFormat)
    (reports : List Report) :
    let answer := ((after calls).fetch format reports).1
    answer.body = (match format with
      | .json => (Report.listTree reports).pretty
      | .linkedData => (LinkedData.compose reports).pretty) ∧
    (answer.reused = true ↔ ∃ earlier later others,
      calls = earlier ++ (format, others) :: later ∧ (∀ call ∈ later, call.1 ≠ format) ∧
        Report.line others = Report.line reports) ∧
    ((after (calls.filter (·.1 = format))).fetch format reports).1 = answer ∧
    ∀ mark : Bytes → UInt64, MarkedCache.Apart mark (calls ++ [(format, reports)]) →
      (MarkedCache.fetch mark (MarkedCache.after mark calls) format reports).1 = answer := by
  intro answer
  have answered : answer = _ := answer_after calls format reports
  refine ⟨?_, ?_, ?_, fun mark apart => ?_⟩
  · rw [answered]
    cases format <;> rfl
  · rw [answered]
    simp only [Option.any_eq_true, latest?_eq_some_iff, decide_eq_true_eq]
    constructor
    · rintro ⟨others, ⟨earlier, later, split, behind⟩, same⟩
      exact ⟨earlier, later, others, split, behind, same⟩
    · rintro ⟨earlier, later, others, split, behind, same⟩
      exact ⟨others, ⟨earlier, later, split, behind⟩, same⟩
  · rw [answered, answer_after, latest?_filter]
  · rw [apart.of_concat.after_eq, apart.fetch_after]

/-- A rendering is handed out again behind a call of the other format for other reports. -/
theorem rendering_kept_behind_other_format :
    let report : Report := ⟨"a", ["b"], none, 0.0, 1, 2, none, none, none⟩
    let calls : List ExportCall :=
      [(.linkedData, []), (.json, [report]), (.linkedData, [report, report])]
    let mark (bytes : Bytes) : UInt64 := bytes.foldl (fun sum byte => sum * 31 + byte.toUInt64) 7
    MarkedCache.Apart mark (calls ++ [(.json, [report])]) ∧
      (MarkedCache.fetch mark (MarkedCache.after mark calls) .json [report]).1 =
        ⟨(Report.listTree [report]).pretty, true⟩ := by
  intro report calls mark
  have apart : MarkedCache.Apart mark (calls ++ [(.json, [report])]) := by
    unfold MarkedCache.Apart
    decide +kernel
  have whole : ∀ answer : Answer, ∀ body, answer.body = body → answer.reused = true →
      answer = ⟨body, true⟩ := by
    rintro ⟨_, _⟩ _ rfl rfl
    rfl
  obtain ⟨body, reused, -, marked⟩ := calls_answered_like_new calls .json [report]
  have again := reused.mpr ⟨[(.linkedData, [])], [(.linkedData, [report, report])], [report], rfl,
    by simp, rfl⟩
  exact ⟨apart, (marked mark apart).trans (whole _ _ body again)⟩

end ExportCache

end CrawlBoard
