import CrawlBoard.Export.Cache
import CrawlBoard.Proofs.Json.Alike
/-!
Renderings that are kept for later are as good as new ones: reports that are the same in one line
are rendered alike in every format, so that the cache never answers with another text.
-/

namespace CrawlBoard

open Json (Tree)

namespace Report

variable {report other : Report}

theorem members_cons (report : Report) : ∃ members,
    report.members = (Field.sitemap.name, .text report.sitemap) :: members :=
  ⟨_, rfl⟩

theorem sitemap_of_alike (alike : report.tree.Alike other.tree) : report.sitemap = other.sitemap := by
  rw [tree, tree, Tree.alike_object_iff] at alike
  obtain ⟨members, given⟩ := report.members_cons
  obtain ⟨others, givenToo⟩ := other.members_cons
  rw [given, givenToo] at alike
  have first := (List.forall₂_cons.mp alike).1
  exact (Tree.alike_text_iff _ _).mp first.2

theorem node_alike (alike : report.tree.Alike other.tree) :
    (LinkedData.node report).Alike (LinkedData.node other) := by
  have sorted := alike.sorted
  rw [tree, tree, Tree.sorted, Tree.sorted, Tree.alike_object_iff] at sorted
  have named := Tree.Alike.refl (.text (LinkedData.sitemapId report.sitemap))
  rw [LinkedData.node, LinkedData.node, ← sitemap_of_alike alike, Tree.alike_object_iff]
  exact Tree.alikeMembers_insert sorted "@id" named

end Report

namespace LinkedData

theorem compose_alike {reports others : List Report}
    (alike : List.Forall₂ (fun report other => report.tree.Alike other.tree) reports others) :
    (compose reports).Alike (compose others) := by
  have template : List.Forall₂ Tree.AlikeMember template template :=
    (Tree.alike_object_iff _ _).mp (.refl _)
  have nodes : (Tree.list (reports.map node)).Alike (.list (others.map node)) := by
    rw [Tree.alike_list_iff, List.forall₂_map_left_iff, List.forall₂_map_right_iff]
    exact alike.imp fun _ _ => Report.node_alike
  rw [compose, compose, Tree.alike_object_iff]
  exact Tree.alikeMembers_insert template "@graph" nodes

end LinkedData

namespace ExportFormat

theorem render_of_compact (format : ExportFormat) {reports others : List Report}
    (same : (Report.listTree reports).compact = (Report.listTree others).compact) :
    format.render reports = format.render others := by
  have whole := Tree.alike_of_compact same
  cases format with
  | json => exact whole.prettyAt 0
  | linkedData =>
      rw [Report.listTree, Report.listTree, Tree.alike_list_iff, List.forall₂_map_left_iff,
        List.forall₂_map_right_iff] at whole
      exact (LinkedData.compose_alike whole).prettyAt 0

end ExportFormat

namespace ExportCache

variable {cache : ExportCache}

/-- Every rendering that is kept is one of the reports it is kept for. -/
def Sound (cache : ExportCache) : Prop :=
  ∀ format rendering, cache.get? format = some rendering →
    ∃ reports, rendering.source = (Report.listTree reports).compact ∧
      rendering.body = format.render reports

theorem sound_empty : Sound {} := by
  intro format rendering kept
  cases format <;> cases kept

theorem get?_put (cache : ExportCache) (format other : ExportFormat) (rendering : Rendering) :
    (cache.put format rendering).get? other =
      if other = format then some rendering else cache.get? other := by
  cases format <;> cases other <;> rfl

theorem Sound.put (sound : cache.Sound) (format : ExportFormat) (reports : List Report) :
    (cache.put format ⟨(Report.listTree reports).compact, format.render reports⟩).Sound := by
  intro other rendering kept
  rw [get?_put] at kept
  split at kept
  · rename_i same
    cases same
    cases kept
    exact ⟨reports, rfl, rfl⟩
  · exact sound other rendering kept

theorem Sound.fetch (sound : cache.Sound) (format : ExportFormat) (reports : List Report) :
    (cache.fetch format reports).1.body = format.render reports ∧
      (cache.fetch format reports).2.Sound := by
  rw [ExportCache.fetch]
  split
  · rename_i rendering kept
    obtain ⟨found, source⟩ := Option.filter_eq_some_iff.mp kept
    obtain ⟨rendered, sourceEq, body⟩ := sound format rendering found
    have same := sourceEq.symm.trans (of_decide_eq_true source)
    exact ⟨body.trans (format.render_of_compact same), sound⟩
  · exact ⟨rfl, sound.put format reports⟩

end ExportCache

end CrawlBoard
