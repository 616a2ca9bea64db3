import StackAudit.Adapters.Builtin
import StackAudit.Proofs.Assembly
import StackAudit.Proofs.Policy
import StackAudit.Proofs.Rules.AccessBlock

/-!
# The order of documents and the findings

A rule sees the rest of the graph through the related resources, and it only asks whether there are
any of some kind. So a rearranged list of documents gets the same findings: which rule concludes
what about which resource, and under which severity.
-/
namespace StackAudit

/-- The outcome of a rule does not depend on the order of the resources. -/
def Rule.OrderFree (r : Rule) : Prop :=
  ∀ (s : Resource) (g g' : Graph), g.resources.Perm g'.resources →
    (Evaluation.ofRule r s g).outcome = (Evaluation.ofRule r s g').outcome

namespace Rules

/-- A rule that does not look at the graph. -/
theorem orderFree_of_judge {r : Rule} (h : ∀ s g g', r.judge s g = r.judge s g') :
    r.OrderFree := by
  intro s g g' _
  rw [Evaluation.ofRule, Evaluation.ofRule, h s g g']

theorem orderFree_publicAccessBlockRequired : publicAccessBlockRequired.OrderFree := by
  intro s g g' h
  rw [outcome_publicAccessBlockRequired, outcome_publicAccessBlockRequired]
  rw [(Graph.related_perm h s .accessBlock).any_eq]

theorem orderFree_builtin (p : Policy) : ∀ r ∈ builtin p, r.OrderFree := by
  intro r hr
  rcases eq_publicAccessBlockRequired_or hr with rfl | hlocal
  · exact orderFree_publicAccessBlockRequired
  · exact orderFree_of_judge fun s => hlocal s s.typeToken

theorem OrderFree.configure {r : Rule} (h : r.OrderFree) (severity : Severity)
    (patterns : List (List Glob.Part)) : (configure r severity patterns).OrderFree := by
  intro s g g' hperm
  simp only [ofRule_configure]
  split
  · rfl
  · exact h s g g' hperm

/-- No rule of a catalog depends on the order of the resources. -/
theorem orderFree_catalog {p : Policy} {c : Catalog} (h : catalog p = .ok c) :
    ∀ r ∈ c.toList, r.OrderFree :=
  forall_mem_catalog h (orderFree_builtin p) fun _ severity patterns hr =>
    OrderFree.configure hr severity patterns

end Rules

/-- What a verdict finds: which rule concludes what about which resource, under which severity. -/
structure Finding where
  resourceId : String
  ruleKey : String
  severity : Severity
  outcome : Outcome
deriving DecidableEq

def Verdict.finding (v : Verdict) : Finding := ⟨v.resourceId, v.ruleKey, v.severity, v.outcome⟩

namespace Graph

variable {g g' : Graph} {c : Catalog}

/-- A rule that does not depend on order finds the same in graphs of the same resources. -/
theorem finding_ofRule {r : Rule} (hr : r.OrderFree) (h : g.resources.Perm g'.resources)
    (s : Resource) : (Verdict.ofRule g s r).finding = (Verdict.ofRule g' s r).finding := by
  change Finding.mk s.id r.key r.severity _ = Finding.mk s.id r.key r.severity _
  rw [Finding.mk.injEq]
  exact ⟨rfl, rfl, rfl, hr s g g' h⟩

/-- Graphs of the same resources get the same findings from rules that do not depend on order. -/
theorem findings_perm (h : g.resources.Perm g'.resources) (hc : ∀ r ∈ c.toList, r.OrderFree) :
    ((evaluate g c).verdicts.map Verdict.finding).Perm
      ((evaluate g' c).verdicts.map Verdict.finding) := by
  have hon (s : Resource) : (verdictsOn g c s).map Verdict.finding =
      (verdictsOn g' c s).map Verdict.finding := by
    rw [verdictsOn, verdictsOn, List.map_map, List.map_map]
    apply List.map_congr_left
    intro r hr
    exact finding_ofRule (hc r (Catalog.mem_toList_of_mem_rulesFor hr)) h s
  rw [verdicts_evaluate, verdicts_evaluate, List.map_flatMap, List.map_flatMap]
  simp only [hon]
  exact h.flatMap_right _

/-- In graphs of the same resources a rule has one verdict on a resource, so far as it finds
something. -/
theorem finding_eq (h : g.resources.Perm g'.resources) (hkeyed : c.Keyed)
    (hc : ∀ r ∈ c.toList, r.OrderFree) {v v' : Verdict} (hv : v ∈ (evaluate g c).verdicts)
    (hv' : v' ∈ (evaluate g' c).verdicts) (hid : v.resourceId = v'.resourceId)
    (hkey : v.ruleKey = v'.ruleKey) : v.finding = v'.finding := by
  obtain ⟨s, hs, r, hr, rfl⟩ := mem_verdicts_evaluate_iff.1 hv
  obtain ⟨s', hs', r', hr', rfl⟩ := mem_verdicts_evaluate_iff.1 hv'
  have hmem := Catalog.mem_toList_of_mem_rulesFor hr
  have hmem' := Catalog.mem_toList_of_mem_rulesFor hr'
  obtain rfl : s = s' := List.inj_on_of_nodup_map g.nodup hs (h.mem_iff.2 hs') hid
  obtain rfl : r = r' := List.inj_on_of_nodup_map hkeyed.nodup_key hmem hmem' hkey
  exact finding_ofRule (hc r hmem) h s

/-- The order of the documents changes nothing of what is found. A rearranged list is accepted
whenever the list is; both graphs hold the same resources, and under every policy every rule comes
to the same outcome with the same severity on every resource. -/
theorem ofDocuments_perm {docs docs' : List RawDocument} (h : docs.Perm docs')
    (registry : AdapterRegistry) (unknown : UnknownKinds) :
    ((∃ g, ofDocuments docs registry unknown = .ok g) ↔
      ∃ g', ofDocuments docs' registry unknown = .ok g') ∧
    ∀ g g', ofDocuments docs registry unknown = .ok g →
      ofDocuments docs' registry unknown = .ok g' →
      g.resources.Perm g'.resources ∧
      ∀ p c, Rules.catalog p = .ok c →
        ((evaluate g c).verdicts.map Verdict.finding).Perm
          ((evaluate g' c).verdicts.map Verdict.finding) ∧
        ∀ v ∈ (evaluate g c).verdicts, ∀ v' ∈ (evaluate g' c).verdicts,
          v.resourceId = v'.resourceId → v.ruleKey = v'.ruleKey →
          v.outcome = v'.outcome ∧ v.severity = v'.severity := by
  constructor
  · constructor
    · rintro ⟨g, hg⟩
      obtain ⟨g', hg', -⟩ := exists_ofDocuments_of_perm h hg
      exact ⟨g', hg'⟩
    · rintro ⟨g', hg'⟩
      obtain ⟨g, hg, -⟩ := exists_ofDocuments_of_perm h.symm hg'
      exact ⟨g, hg⟩
  · intro g g' hg hg'
    obtain ⟨g'', hg'', hperm⟩ := exists_ofDocuments_of_perm h hg
    obtain rfl : g'' = g' := Except.ok.inj (hg''.symm.trans hg')
    refine ⟨hperm, fun p c hc => ?_⟩
    have hfree := Rules.orderFree_catalog hc
    refine ⟨findings_perm hperm hfree, fun v hv v' hv' hid hkey => ?_⟩
    have hfinding := finding_eq hperm (Rules.catalog_spec hc).1 hfree hv hv' hid hkey
    rw [Verdict.finding, Verdict.finding, Finding.mk.injEq] at hfinding
    exact ⟨hfinding.2.2.2, hfinding.2.2.1⟩

/-- A bucket with an alias, and a block that refers to the bucket by the alias. -/
def aliasedDocuments : List RawDocument :=
  [{ doc := ⟨.here, 0, none⟩
     body := .obj [("type", .str "aws:s3/bucket:Bucket"), ("name", .str "logs"),
       ("properties", .obj [("bucket", .str "acme-logs")])] },
   { doc := ⟨.here, 1, none⟩
     body := .obj [("type", .str "aws:s3/bucketPublicAccessBlock:BucketPublicAccessBlock"),
       ("name", .str "block"), ("properties", .obj [("bucket", .str "acme-logs")])] }]

theorem ofDocuments_perm_aliased :
    ∃ g g', ofDocuments aliasedDocuments .builtin .reject = .ok g ∧
      ofDocuments aliasedDocuments.reverse .builtin .reject = .ok g' ∧
      g.resources.map (fun s => (s.id, s.relations.toList)) = [("logs", []), ("block", ["logs"])] ∧
      g.resources.Perm g'.resources ∧
      ∀ p c, Rules.catalog p = .ok c →
        ((evaluate g c).verdicts.map Verdict.finding).Perm
          ((evaluate g' c).verdicts.map Verdict.finding) := by
  have h := ofDocuments_perm aliasedDocuments.reverse_perm.symm .builtin .reject
  obtain ⟨g, hg, hrelations⟩ : ∃ g, ofDocuments aliasedDocuments .builtin .reject = .ok g ∧
      g.resources.map (fun s => (s.id, s.relations.toList)) =
        [("logs", []), ("block", ["logs"])] :=
    exists_eq_ok_of_map (by decide +kernel)
  obtain ⟨g', hg'⟩ := h.1.1 ⟨g, hg⟩
  obtain ⟨hperm, hfindings⟩ := h.2 g g' hg hg'
  exact ⟨g, g', hg, hg', hrelations, hperm, fun p c hc => (hfindings p c hc).1⟩

end Graph

end StackAudit
