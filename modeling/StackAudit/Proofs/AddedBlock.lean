import StackAudit.Proofs.Graph
import StackAudit.Proofs.Rules.AccessBlock
import StackAudit.Proofs.UnknownKinds

/-!
# Adding a block of public access

A rule sees other resources only as the blocks that are related to a bucket, and one complete block
is enough. So a block that is added to a graph, wherever it is put, changes no verdict but those of
the rule about blocks on the buckets that it refers to, and none of these for the worse.
-/
namespace StackAudit

namespace Verdict

/-- The verdicts of the rule about blocks on a bucket that the block refers to. The second one has the
same outcome as the first or is a pass in the place of a violation. -/
structure HelpedBy (block : Resource) (v w : Verdict) : Prop where
  rule : v.ruleKey = RuleKey.publicAccessBlockRequired ∧ w.ruleKey = v.ruleKey ∧
    w.severity = v.severity
  bucket : v.resourceKind = ResourceKind.bucket.name ∧
    block.relations.contains v.resourceId = true
  resource : w.resourceId = v.resourceId ∧ w.resourceKind = v.resourceKind ∧
    w.location = v.location
  outcome : w.outcome = v.outcome ∨ v.outcome = .violation ∧ w.outcome = .pass

theorem ofRule_congr {g g' : Graph} {s : Resource} {r : Rule} (h : r.judge s g = r.judge s g') :
    ofRule g s r = ofRule g' s r := by
  have hevaluation : Evaluation.ofRule r s g = Evaluation.ofRule r s g' := by
    rw [Evaluation.ofRule, Evaluation.ofRule, h]
  rw [ofRule, ofRule, hevaluation]

end Verdict

namespace Graph

variable {g g' : Graph} {before after : List Resource} {block s : Resource}

/-- No resource refers to one that is not in the graph. -/
theorem contains_relations_eq_false {id : String} (hnew : id ∉ g.resources.map Resource.id)
    (hs : s ∈ g.resources) : s.relations.contains id = false := by
  rw [Bool.eq_false_iff]
  intro hrefers
  obtain ⟨t, ht, hid⟩ := g.closed_resources s hs id (KeySet.mem_toList_iff.2 hrefers)
  exact hnew (hid ▸ List.mem_map_of_mem ht)

/-- A new resource whose relations are in the graph can be added anywhere. -/
theorem exists_ofResources_insert (hg : g.resources = before ++ after)
    (hnew : block.id ∉ g.resources.map Resource.id)
    (hrelations : ∀ target ∈ block.relations.toList, target ∈ g.resources.map Resource.id) :
    ∃ g', ofResources (before ++ block :: after) = .ok g' := by
  have hperm : (block :: g.resources).Perm (before ++ block :: after) := by
    rw [hg]
    exact List.perm_middle.symm
  apply exists_ofResources_of_perm hperm
  refine exists_ofResources_iff.2 ⟨List.nodup_cons.2 ⟨hnew, g.nodup⟩, ?_⟩
  have hfound {target : String} (h : target ∈ g.resources.map Resource.id) :
      ∃ s ∈ block :: g.resources, s.id = target := by
    obtain ⟨s, hs, hid⟩ := List.mem_map.1 h
    exact ⟨s, List.mem_cons_of_mem _ hs, hid⟩
  intro r hr target htarget
  rcases List.mem_cons.1 hr with rfl | hr
  · exact hfound (hrelations target htarget)
  · obtain ⟨s, hs, hid⟩ := g.closed_resources r hr target htarget
    exact ⟨s, List.mem_cons_of_mem _ hs, hid⟩

/-- Where a resource is added that is not related, the related ones stay the same. -/
theorem related_insert_of_not_areRelated (hg : g.resources = before ++ after)
    (hg' : g'.resources = before ++ block :: after) (h : areRelated s block = false)
    (kind : ResourceKind) : g'.related s kind = g.related s kind := by
  rw [related_eq_filter, related_eq_filter, hg, hg', List.filter_append, List.filter_append,
    List.filter_cons_of_neg (by simp [h])]

/-- In any case no related resource goes away. -/
theorem related_sublist_insert (hg : g.resources = before ++ after)
    (hg' : g'.resources = before ++ block :: after) (s : Resource) (kind : ResourceKind) :
    (g.related s kind).Sublist (g'.related s kind) := by
  rw [related_eq_filter, related_eq_filter, hg, hg']
  exact ((List.sublist_cons_self block after).append_left before).filter _

end Graph

namespace Rules

variable {g g' : Graph} {s : Resource}

theorem judge_publicAccessBlockRequired_congr
    (h : g.related s .accessBlock = g'.related s .accessBlock) :
    publicAccessBlockRequired.judge s g = publicAccessBlockRequired.judge s g' := by
  simp only [publicAccessBlockRequired, h]

/-- More blocks make the outcome no worse. -/
theorem outcome_publicAccessBlockRequired_mono
    (h : (g.related s .accessBlock).Sublist (g'.related s .accessBlock)) :
    let e := Evaluation.ofRule publicAccessBlockRequired s g
    let e' := Evaluation.ofRule publicAccessBlockRequired s g'
    e'.outcome = e.outcome ∨ e.outcome = .violation ∧ e'.outcome = .pass := by
  intro e e'
  have he : e.outcome = _ := outcome_publicAccessBlockRequired s g
  have he' : e'.outcome = _ := outcome_publicAccessBlockRequired s g'
  by_cases hcomplete : ((g.related s .accessBlock).any fun b => (missingFlags b).isEmpty) = true
  · have hstill : ((g'.related s .accessBlock).any fun b => (missingFlags b).isEmpty) = true := by
      obtain ⟨b, hb, hflags⟩ := List.any_eq_true.1 hcomplete
      exact List.any_eq_true.2 ⟨b, h.subset hb, hflags⟩
    left
    rw [he, he', if_pos hcomplete, if_pos hstill]
  · rw [if_neg hcomplete] at he
    by_cases hnow : ((g'.related s .accessBlock).any fun b => (missingFlags b).isEmpty) = true
    · exact .inr ⟨he, he'.trans (if_pos hnow)⟩
    · left
      rw [he, he', if_neg hnow]

/-- A rule of a catalog is the one about blocks under some settings, or it does not look at the
graph. -/
theorem eq_configure_publicAccessBlockRequired_or {p : Policy} {c : Catalog}
    (hc : catalog p = .ok c) {r : Rule} (hr : r ∈ c.toList) :
    (∃ severity patterns, r = configure publicAccessBlockRequired severity patterns) ∨
      ∀ s g g', r.judge s g = r.judge s g' := by
  obtain ⟨b, hb, rfl⟩ := List.mem_map.1 ((catalog_spec hc).2.mem_iff.1 hr)
  obtain ⟨severity, patterns, hsettled⟩ := exists_settled_eq p b
  rw [hsettled]
  rcases eq_publicAccessBlockRequired_or (List.mem_of_mem_filter hb) with rfl | hlocal
  · exact .inl ⟨severity, patterns, rfl⟩
  · right
    intro s g g'
    simp only [configure]
    rw [hlocal s s.typeToken g g']

/-- No built-in rule is about blocks themselves. -/
theorem rulesFor_accessBlock {p : Policy} {c : Catalog} (hc : catalog p = .ok c) :
    c.rulesFor .accessBlock = [] := by
  apply (rulesFor_eq_nil_iff hc).2
  intro r hr _
  rw [← Bool.not_eq_true, Rule.applies, List.contains_iff_mem]
  intro happlies
  have hjudged := appliesTo_subset_judgedKinds hr happlies
  exact absurd hjudged (by decide)

end Rules

section

variable {g g' : Graph} {before after : List Resource} {block : Resource} {p : Policy} {c : Catalog}

/-- A rule gives the same verdict when a block is added, or it is the one about blocks, on a bucket
that the added one refers to. -/
theorem Verdict.eq_or_helpedBy (hg : g.resources = before ++ after)
    (hg' : g'.resources = before ++ block :: after)
    (hnew : block.id ∉ g.resources.map Resource.id) (hc : Rules.catalog p = .ok c) {s : Resource}
    (hs : s ∈ g.resources) {r : Rule} (hr : r ∈ c.rulesFor s.kind) :
    ofRule g s r = ofRule g' s r ∨ HelpedBy block (ofRule g s r) (ofRule g' s r) := by
  rcases Rules.eq_configure_publicAccessBlockRequired_or hc (Catalog.mem_toList_of_mem_rulesFor hr)
    with hconfigured | hlocal
  · obtain ⟨severity, patterns, rfl⟩ := hconfigured
    by_cases hrefers : block.relations.contains s.id = true
    · right
      have happlies : s.kind ∈ [ResourceKind.bucket] :=
        List.contains_iff_mem.1 (List.mem_filter.1 ((c.rulesFor_perm s.kind).mem_iff.1 hr)).2
      have hbucket : s.kind = .bucket := List.mem_singleton.1 happlies
      refine ⟨⟨rfl, rfl, rfl⟩, ⟨congrArg ResourceKind.name hbucket, hrefers⟩, ⟨rfl, rfl, rfl⟩, ?_⟩
      simp only [ofRule, Rules.ofRule_configure]
      split
      · exact .inl rfl
      · exact Rules.outcome_publicAccessBlockRequired_mono
          (Graph.related_sublist_insert hg hg' s .accessBlock)
    · left
      have hrelated : Graph.areRelated s block = false := by
        rw [Graph.areRelated, Graph.contains_relations_eq_false hnew hs, Bool.false_or]
        exact Bool.eq_false_iff.2 hrefers
      have hsame := Graph.related_insert_of_not_areRelated hg hg' hrelated .accessBlock
      apply ofRule_congr
      simp only [Rules.configure]
      rw [Rules.judge_publicAccessBlockRequired_congr hsame.symm]
  · exact .inl (ofRule_congr (hlocal s g g'))

/-- A block can be added to a graph wherever its relations are known, and adding it is local and can
only help: every verdict stays as it was and where it was, but for those of the rule about blocks on
the buckets that the block refers to, and these get no worse. -/
theorem evaluate_added_block (hg : g.resources = before ++ after)
    (hkind : block.kind = .accessBlock) (hnew : block.id ∉ g.resources.map Resource.id)
    (hrelations : ∀ target ∈ block.relations.toList, target ∈ g.resources.map Resource.id)
    (hc : Rules.catalog p = .ok c) :
    ∃ g', Graph.ofResources (before ++ block :: after) = .ok g' ∧
      List.Forall₂ (fun v w => v = w ∨ Verdict.HelpedBy block v w)
        (evaluate g c).verdicts (evaluate g' c).verdicts := by
  obtain ⟨g', hg'⟩ := Graph.exists_ofResources_insert hg hnew hrelations
  refine ⟨g', hg', ?_⟩
  have hresources := Graph.resources_of_ofResources hg'
  have hnone : verdictsOn g' c block = [] := by
    rw [verdictsOn, hkind, Rules.rulesFor_accessBlock hc]
    rfl
  have hskip : (evaluate g' c).verdicts = g.resources.flatMap (verdictsOn g' c) := by
    rw [verdicts_evaluate, hresources, List.flatMap_append, List.flatMap_cons, hnone,
      List.nil_append, ← List.flatMap_append, ← hg]
  rw [hskip, verdicts_evaluate, List.flatMap_def, List.flatMap_def]
  apply List.rel_flatten
  rw [List.forall₂_map_left_iff, List.forall₂_map_right_iff, List.forall₂_same]
  intro s hs
  rw [verdictsOn, verdictsOn, List.forall₂_map_left_iff, List.forall₂_map_right_iff,
    List.forall₂_same]
  intro r hr
  exact Verdict.eq_or_helpedBy hg hresources hnew hc hs hr

end

def logsBucket : Resource := .ofKind "logs" .bucket

def assetsBucket : Resource := .ofKind "assets" .bucket

/-- Two buckets without a block. -/
def openGraph : Graph := .ofClosed [logsBucket, assetsBucket] (by decide) rfl

/-- A complete block for the first bucket. -/
def logsBlock : Resource :=
  { Resource.ofKind "block" .accessBlock with
    properties := .ofList (Rules.blockFlags.map fun flag => (flag, .bool true))
    relations := .ofList ["logs"] }

/-- The block helps the bucket that it refers to, and no other. -/
theorem evaluate_added_block_between :
    ∃ c g', Rules.catalog Policy.strict = .ok c ∧
      Graph.ofResources [logsBucket, logsBlock, assetsBucket] = .ok g' ∧
      List.Forall₂ (fun v w => v = w ∨ Verdict.HelpedBy logsBlock v w)
        (evaluate openGraph c).verdicts (evaluate g' c).verdicts ∧
      [logsBucket, assetsBucket].map (fun s =>
          (Evaluation.ofRule Rules.publicAccessBlockRequired s openGraph).outcome) =
        [.violation, .violation] ∧
      [logsBucket, assetsBucket].map (fun s =>
          (Evaluation.ofRule Rules.publicAccessBlockRequired s g').outcome) =
        [.pass, .violation] := by
  obtain ⟨c, hc⟩ := Rules.exists_catalog_bare Policy.strict
  have hbetween : openGraph.resources = [logsBucket] ++ [assetsBucket] := rfl
  have hkind : logsBlock.kind = .accessBlock := rfl
  obtain ⟨g', hg', hverdicts⟩ :=
    evaluate_added_block hbetween hkind (by decide) (by decide) hc
  obtain ⟨g'', hg'', houtcomes⟩ :
      ∃ g', Graph.ofResources [logsBucket, logsBlock, assetsBucket] = .ok g' ∧
        [logsBucket, assetsBucket].map (fun s =>
          (Evaluation.ofRule Rules.publicAccessBlockRequired s g').outcome) =
        [.pass, .violation] :=
    exists_eq_ok_of_map (by decide +kernel)
  obtain rfl : g'' = g' := Except.ok.inj (hg''.symm.trans hg')
  exact ⟨c, g'', hc, hg', hverdicts, by decide, houtcomes⟩

end StackAudit
