import StackAudit.Proofs.Catalog
import StackAudit.Proofs.Graph

/-!
# One verdict for each rule on each resource

A report tells, for each resource in turn, what every registered rule that applies to it concluded,
and nothing else. A rule that fails gives a verdict like any other rule, a violation. What a rule
does on a resource decides that verdict and no other one.
-/
namespace StackAudit

namespace Verdict

/-- The verdict is that of a rule on a resource, whether the rule concluded something or failed. -/
structure Tells (g : Graph) (s : Resource) (r : Rule) (v : Verdict) : Prop where
  resource : v.resourceId = s.id ∧ v.resourceKind = s.kind.name ∧ v.location = s.location
  rule : v.ruleKey = r.key ∧ v.severity = r.severity
  judged : ∀ e, r.judge s g = .ok e → v.outcome = e.outcome ∧ v.message = e.message
  failed : ∀ f, r.judge s g = .error f →
    v.outcome = .violation ∧ v.message = "rule evaluation error: " ++ f.message
  fingerprint : v.fingerprint.isSome = true ↔ v.outcome = .violation
  help : v.help.isSome = true ↔
    v.outcome = .violation ∧ v.ruleKey ∈ Guidance.table.map Prod.fst

/-- The verdicts are those on one resource: one for each of the rules that apply to its kind, with
the greater severities first and the keys ascending among equal severities. -/
structure Account (g : Graph) (rules : List Rule) (s : Resource) (vs : List Verdict) : Prop where
  complete : ∃ applied : List Rule,
    applied.Perm (rules.filter (s.kind ∈ ·.appliesTo)) ∧ List.Forall₂ (Tells g s) applied vs
  ordered : vs.Pairwise fun v w =>
    w.severity < v.severity ∨ v.severity = w.severity ∧ v.ruleKey < w.ruleKey

theorem isSome_hint?_iff (key : String) :
    (Guidance.hint? key).isSome = true ↔ key ∈ Guidance.table.map Prod.fst := by
  rw [Guidance.hint?, Guidance.find?, Option.isSome_map, List.lookup_isSome_iff]
  simp

theorem tells_ofRule (g : Graph) (s : Resource) (r : Rule) : Tells g s r (ofRule g s r) where
  resource := ⟨rfl, rfl, rfl⟩
  rule := ⟨rfl, rfl⟩
  judged e he := by simp [ofRule, Evaluation.ofRule, he]
  failed f hf := by simp [ofRule, Evaluation.ofRule, hf, Evaluation.violation]
  fingerprint := by
    simp only [ofRule]
    split <;> simp [*]
  help := by
    simp only [ofRule]
    split
    · simp [*, isSome_hint?_iff]
    · simp [*]

end Verdict

namespace Standing

theorem lt_of_before_of_ne {a b : Standing} (h : before a b = true) (hne : a ≠ b) :
    b.1 < a.1 ∨ a.1 = b.1 ∧ a.2 < b.2 := by
  simp only [before, Bool.or_eq_true, Bool.and_eq_true, decide_eq_true_eq] at h
  rcases h with hlt | ⟨heq, hle⟩
  · exact .inl hlt
  · refine .inr ⟨heq, Std.lt_of_le_of_ne hle ?_⟩
    intro hkey
    exact hne (Prod.ext heq hkey)

end Standing

theorem account_verdictsOn {c : Catalog} (hc : c.Keyed) (g : Graph) (s : Resource) :
    Verdict.Account g c.toList s (verdictsOn g c s) := by
  refine ⟨⟨c.rulesFor s.kind, ?_, ?_⟩, ?_⟩
  · have happlies : (·.applies s.kind) = fun r : Rule => decide (s.kind ∈ r.appliesTo) := by
      funext r
      simp [Rule.applies]
    exact happlies ▸ c.rulesFor_perm s.kind
  · rw [verdictsOn, List.forall₂_map_right_iff, List.forall₂_same]
    intro r _
    exact Verdict.tells_ofRule g s r
  · have hdistinct := List.pairwise_map.1 (hc.nodup_standing_rulesFor s.kind)
    refine List.pairwise_map.2 (((hc.pairwise_rulesFor s.kind).and hdistinct).imp ?_)
    rintro a b ⟨hbefore, hne⟩
    exact Standing.lt_of_before_of_ne hbefore hne

theorem Verdict.Account.of_perm {g : Graph} {rules rules' : List Rule} {s : Resource}
    {vs : List Verdict} (h : Account g rules s vs) (hp : rules.Perm rules') :
    Account g rules' s vs := by
  obtain ⟨⟨applied, happlied, htells⟩, hordered⟩ := h
  exact ⟨⟨applied, happlied.trans (hp.filter _), htells⟩, hordered⟩

/-- What a verdict is about: the id of the resource and the key of the rule. -/
def Verdict.subject (v : Verdict) : String × String := (v.resourceId, v.ruleKey)

/-- No rule has two verdicts on one resource. -/
theorem nodup_subject_evaluate {c : Catalog} (hc : c.Keyed) (g : Graph) :
    ((evaluate g c).verdicts.map Verdict.subject).Nodup := by
  rw [verdicts_evaluate, List.map_flatMap, List.nodup_flatMap]
  constructor
  -- The keys differ on one resource, and the ids between resources.
  · intro s _
    apply List.Nodup.of_map Prod.snd
    rw [verdictsOn, List.map_map, List.map_map]
    exact hc.nodup_key_rulesFor s.kind
  · refine (List.pairwise_map.1 g.nodup).imp ?_
    intro s t hne e hs ht
    simp only [verdictsOn, List.map_map, List.mem_map, Function.comp_apply] at hs ht
    obtain ⟨r, -, rfl⟩ := hs
    obtain ⟨r', -, hsubject⟩ := ht
    exact hne (Prod.ext_iff.1 hsubject).1.symm

/-- What is told apart by a key occurs once under its key. -/
theorem filter_eq_singleton_of_nodup_map {α β : Type} [DecidableEq β] {f : α → β} {l : List α}
    (hn : (l.map f).Nodup) {a : α} (ha : a ∈ l) : l.filter (fun b => f b = f a) = [a] := by
  induction l with
  | nil => exact absurd ha List.not_mem_nil
  | cons b l ih =>
    obtain ⟨hnew, hn⟩ := List.nodup_cons.1 hn
    rcases List.mem_cons.1 ha with rfl | ha
    · rw [List.filter_cons_of_pos (by simp), List.filter_eq_nil_iff.2]
      intro c hc heq
      exact hnew (of_decide_eq_true heq ▸ List.mem_map_of_mem hc)
    · have hne : f b ≠ f a := fun heq => hnew (heq ▸ List.mem_map_of_mem ha)
      rw [List.filter_cons_of_neg (by simpa using hne), ih hn ha]

/-- A rule has exactly one verdict on a resource that it applies to. -/
theorem filter_subject_evaluate {c : Catalog} (hc : c.Keyed) {g : Graph} {s : Resource}
    (hs : s ∈ g.resources) {r : Rule} (hr : r ∈ c.rulesFor s.kind) :
    (evaluate g c).verdicts.filter (fun v => v.subject = (s.id, r.key)) =
      [Verdict.ofRule g s r] :=
  filter_eq_singleton_of_nodup_map (nodup_subject_evaluate hc g)
    (mem_verdicts_evaluate_iff.2 ⟨s, hs, r, hr, rfl⟩)

/-- Two lists of verdicts are the same, but perhaps for the verdict of one rule on one resource. -/
def DifferAtMostIn (key id : String) (vs ws : List Verdict) : Prop :=
  vs = ws ∨ ∃ before v w after,
    vs = before ++ v :: after ∧ ws = before ++ w :: after ∧
      v.ruleKey = key ∧ v.resourceId = id ∧ w.ruleKey = key ∧ w.resourceId = id

/-- Lists that agree place by place, save where the subject is a given one, differ in one place at
most if no subject occurs twice. -/
theorem differAtMostIn_of_forall₂ {key id : String} {vs ws : List Verdict}
    (h : List.Forall₂ (fun v w => v = w ∨ v.subject = (id, key) ∧ w.subject = (id, key)) vs ws)
    (hn : (vs.map Verdict.subject).Nodup) : DifferAtMostIn key id vs ws := by
  induction h with
  | nil => exact .inl rfl
  | @cons v w vs ws hvw hrest ih =>
    obtain ⟨hnew, hn⟩ := List.nodup_cons.1 hn
    rcases hvw with rfl | ⟨hv, hw⟩
    · rcases ih hn with rfl | ⟨before, a, b, after, rfl, rfl, hab⟩
      · exact .inl rfl
      · exact .inr ⟨v :: before, a, b, after, rfl, rfl, hab⟩
    · -- The subject does not occur again, so the rest agrees everywhere.
      have hsame : vs = ws := by
        have hother : ∀ a ∈ vs, a.subject ≠ (id, key) := by
          intro a ha heq
          exact hnew (hv ▸ heq ▸ List.mem_map_of_mem ha)
        rw [← List.forall₂_eq_eq_eq]
        refine ((List.forall₂_and_left _ _).2 ⟨hother, hrest⟩).imp ?_
        rintro a b ⟨hne, hab⟩
        exact hab.resolve_right fun h => hne h.1
      obtain ⟨hvid, hvkey⟩ := Prod.ext_iff.1 hv
      obtain ⟨hwid, hwkey⟩ := Prod.ext_iff.1 hw
      subst hsame
      exact .inr ⟨[], v, w, vs, rfl, rfl, hvkey, hvid, hwkey, hwid⟩

/-- Rules with the same key, kinds and severity, that judge the resources of a graph alike unless
they have the given key and the resource has the given id. -/
structure Rule.AgreeBut (g : Graph) (key id : String) (r r' : Rule) : Prop where
  key_eq : r'.key = r.key
  appliesTo_eq : r'.appliesTo = r.appliesTo
  severity_eq : r'.severity = r.severity
  judge_eq : ∀ s ∈ g.resources, ¬(r.key = key ∧ s.id = id) → r'.judge s g = r.judge s g

theorem Rule.AgreeBut.refl (g : Graph) (key id : String) (r : Rule) : r.AgreeBut g key id r :=
  ⟨rfl, rfl, rfl, fun _ _ _ => rfl⟩

/-- Sorting keeps a relation between elements that the order does not tell from each other. -/
theorem forall₂_mergeSort {α : Type} {R : α → α → Prop} {le : α → α → Bool}
    (hle : ∀ a a' b b', R a a' → R b b' → le a b = le a' b') {l l' : List α}
    (h : List.Forall₂ R l l') : List.Forall₂ R (l.mergeSort le) (l'.mergeSort le) := by
  -- Both lists are read off one list of pairs, which is sorted by either side alike.
  obtain ⟨p, rfl, rfl, hp⟩ :
      ∃ p : List (α × α), p.map Prod.fst = l ∧ p.map Prod.snd = l' ∧ ∀ e ∈ p, R e.1 e.2 :=
    ⟨l.zip l', List.map_fst_zip (Nat.le_of_eq h.length_eq),
      List.map_snd_zip (Nat.le_of_eq h.length_eq.symm), fun _ he => List.forall₂_zip h he⟩
  have hfst : (p.map Prod.fst).mergeSort le = (p.mergeSort fun a b => le a.1 b.1).map Prod.fst :=
    (List.map_mergeSort (f := Prod.fst) fun _ _ _ _ => rfl).symm
  have hsnd : (p.map Prod.snd).mergeSort le = (p.mergeSort fun a b => le a.1 b.1).map Prod.snd :=
    (List.map_mergeSort fun a ha b hb => hle _ _ _ _ (hp a ha) (hp b hb)).symm
  rw [hfst, hsnd, List.forall₂_map_left_iff, List.forall₂_map_right_iff, List.forall₂_same]
  intro e he
  exact hp e (List.mem_mergeSort.1 he)

namespace Catalog

/-- The catalogs hold the same rules, but perhaps for what the rule with the given key does on the
resource with the given id. -/
def AgreeBut (g : Graph) (key id : String) (c c' : Catalog) : Prop :=
  List.Forall₂ (Rule.AgreeBut g key id) c.toList c'.toList

variable {g : Graph} {key id : String} {c c' : Catalog}

/-- It does not matter in which order the rules are registered. -/
theorem agreeBut_of_registerAll {rules rules' : List Rule}
    (hrules : List.Forall₂ (Rule.AgreeBut g key id) rules rules')
    (hc : rules.foldlM Catalog.register ∅ = .ok c)
    (hc' : rules'.foldlM Catalog.register ∅ = .ok c') : AgreeBut g key id c c' := by
  obtain ⟨hkeyed, hperm⟩ := keyed_empty.registerAll hc
  obtain ⟨hkeyed', hperm'⟩ := keyed_empty.registerAll hc'
  -- The rules of the second catalog, in the order that the first one has them.
  obtain ⟨l, hl, hlperm⟩ := List.perm_comp_forall₂ hperm hrules
  have hkeys : c.toList.map Rule.key = l.map Rule.key := by
    rw [← List.forall₂_eq_eq_eq, List.forall₂_map_left_iff, List.forall₂_map_right_iff]
    exact hl.imp fun _ _ h => h.key_eq.symm
  have hsorted : l.Pairwise fun a b => a.key < b.key := by
    have hkeyed := List.pairwise_map.2 hkeyed.pairwise_key
    rw [hkeys] at hkeyed
    exact List.pairwise_map.1 hkeyed
  have hlist : l = c'.toList :=
    eq_of_perm_of_ascending (hlperm.trans hperm'.symm) hsorted hkeyed'.pairwise_key
  rwa [AgreeBut, ← hlist]

theorem AgreeBut.rulesFor (h : AgreeBut g key id c c') (kind : ResourceKind) :
    List.Forall₂ (Rule.AgreeBut g key id) (c.rulesFor kind) (c'.rulesFor kind) := by
  apply forall₂_mergeSort
  · intro a a' b b' ha hb
    rw [severityOrder, severityOrder, ha.severity_eq, hb.severity_eq]
  · refine List.rel_filter ?_ h
    intro r r' hr
    simp only [Rule.applies, hr.appliesTo_eq]

/-- Catalogs that agree but for one rule on one resource give the same verdicts on every resource,
but for that one. -/
theorem AgreeBut.verdictsOn (h : AgreeBut g key id c c') {s : Resource} (hs : s ∈ g.resources) :
    List.Forall₂ (fun v w => v = w ∨ v.subject = (id, key) ∧ w.subject = (id, key))
      (verdictsOn g c s) (verdictsOn g c' s) := by
  rw [StackAudit.verdictsOn, StackAudit.verdictsOn, List.forall₂_map_left_iff,
    List.forall₂_map_right_iff]
  refine (h.rulesFor s.kind).imp ?_
  intro r r' hr
  by_cases hsubject : r.key = key ∧ s.id = id
  · obtain ⟨rfl, rfl⟩ := hsubject
    exact .inr ⟨rfl, Prod.ext rfl hr.key_eq⟩
  · have hevaluation : Evaluation.ofRule r' s g = Evaluation.ofRule r s g := by
      rw [Evaluation.ofRule, Evaluation.ofRule, hr.judge_eq s hs hsubject]
    left
    rw [Verdict.ofRule, Verdict.ofRule, hevaluation, hr.key_eq, hr.severity_eq]

end Catalog

/-- A report holds one verdict for every registered rule on every resource that it applies to, in
order, and nothing else. Changing what one rule does on one resource, be it that the rule fails
there, changes no other verdict. -/
theorem evaluate_accounts {rules : List Rule} {c : Catalog}
    (hc : rules.foldlM Catalog.register ∅ = .ok c) (g : Graph) :
    (∃ groups : List (List Verdict), (evaluate g c).verdicts = groups.flatten ∧
      List.Forall₂ (Verdict.Account g rules) g.resources groups) ∧
    ∀ (key id : String) (c' : Catalog), Catalog.AgreeBut g key id c c' →
      DifferAtMostIn key id (evaluate g c).verdicts (evaluate g c').verdicts := by
  obtain ⟨hkeyed, hperm⟩ := Catalog.keyed_empty.registerAll hc
  rw [Catalog.toList_empty, List.nil_append] at hperm
  constructor
  · refine ⟨g.resources.map (verdictsOn g c), by rw [verdicts_evaluate, List.flatMap_def], ?_⟩
    rw [List.forall₂_map_right_iff, List.forall₂_same]
    intro s _
    exact (account_verdictsOn hkeyed g s).of_perm hperm
  · intro key id c' h
    apply differAtMostIn_of_forall₂ ?_ (nodup_subject_evaluate hkeyed g)
    rw [verdicts_evaluate, verdicts_evaluate, List.flatMap_def, List.flatMap_def]
    apply List.rel_flatten
    rw [List.forall₂_map_left_iff, List.forall₂_map_right_iff, List.forall₂_same]
    intro s hs
    exact h.verdictsOn hs

/-- Two buckets and a workload between them. -/
def zonedGraph : Graph :=
  .ofClosed [.ofKind "logs" .bucket, .ofKind "api" .workload, .ofKind "assets" .bucket]
    (by decide) rfl

/-- Passes every resource but the logs, where it fails. -/
def zoneSet : Rule where
  key := "zone-set"
  appliesTo := [.bucket, .workload]
  severity := .high
  judge s _ :=
    if s.id = "logs" then .error (.unexpectedShape "zone" "a string")
    else .ok (.pass "the zone is set")

/-- Passes the logs, too. -/
def zoneSetMended : Rule :=
  { zoneSet with judge := fun _ _ => .ok (.pass "the zone is set") }

/-- Breaks down on every bucket. -/
def aclBroken : Rule where
  key := RuleKey.noPublicAcl
  appliesTo := [.bucket]
  severity := .critical
  judge _ _ := .error (.breakdown none)

theorem evaluate_accounts_zoned :
    ∃ c c', [zoneSet, aclBroken].foldlM Catalog.register ∅ = .ok c ∧
      [zoneSetMended, aclBroken].foldlM Catalog.register ∅ = .ok c' ∧
      (∃ groups : List (List Verdict), (evaluate zonedGraph c).verdicts = groups.flatten ∧
        List.Forall₂ (Verdict.Account zonedGraph [zoneSet, aclBroken]) zonedGraph.resources
          groups) ∧
      Catalog.AgreeBut zonedGraph "zone-set" "logs" c c' ∧
      DifferAtMostIn "zone-set" "logs" (evaluate zonedGraph c).verdicts
        (evaluate zonedGraph c').verdicts := by
  obtain ⟨c, hc, -⟩ : ∃ c, [zoneSet, aclBroken].foldlM Catalog.register ∅ = .ok c ∧ c.size = 2 :=
    exists_eq_ok_of_map (by decide +kernel)
  obtain ⟨c', hc', -⟩ :
      ∃ c, [zoneSetMended, aclBroken].foldlM Catalog.register ∅ = .ok c ∧ c.size = 2 :=
    exists_eq_ok_of_map (by decide +kernel)
  have hzone : zoneSet.AgreeBut zonedGraph "zone-set" "logs" zoneSetMended := by
    refine ⟨rfl, rfl, rfl, ?_⟩
    intro s _ hother
    have hid : s.id ≠ "logs" := fun heq => hother ⟨rfl, heq⟩
    simp [zoneSet, zoneSetMended, hid]
  have hagree : Catalog.AgreeBut zonedGraph "zone-set" "logs" c c' :=
    Catalog.agreeBut_of_registerAll (.cons hzone (.cons (.refl _ _ _ _) .nil)) hc hc'
  obtain ⟨haccount, hisolated⟩ := evaluate_accounts hc zonedGraph
  exact ⟨c, c', hc, hc', haccount, hagree, hisolated _ _ _ hagree⟩

end StackAudit
