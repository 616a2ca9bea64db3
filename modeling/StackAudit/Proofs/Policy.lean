import StackAudit.Proofs.Catalog
import StackAudit.Proofs.Except
import StackAudit.Rules.Builtin

/-!
# What a policy does to a report

A policy changes the rules before a run. The same report comes from a run without any settings by
changing its verdicts afterwards: those of disabled rules go, severities are overridden, exempted
resources get a verdict that says so, and the verdicts on each resource are put in order again.
-/
namespace StackAudit

/-- The policy without settings for single rules. -/
def Policy.bare (p : Policy) : Policy := { p with rules := ∅ }

namespace Rules

/-- The patterns that the entries of an allow list stand for. -/
def patternsOf (allow : List String) : List (List Glob.Part) :=
  allow.filterMap fun pattern => (Glob.parse pattern).toOption

theorem readAllowList_eq_patternsOf {key : String} {allow : List String}
    {patterns : List (List Glob.Part)} (h : readAllowList key allow = .ok patterns) :
    patterns = patternsOf allow := by
  have hread := mapM_eq_ok_iff.1 h
  clear h
  induction hread with
  | nil => rfl
  | @cons pattern parts allow patterns hparts _ ih =>
    have hparse : Glob.parse pattern = .ok parts := by
      cases hp : Glob.parse pattern with
      | error e => simp [hp] at hparts
      | ok parts' => simpa [hp] using hparts
    rw [ih]
    simp [patternsOf, hparse, Except.toOption]

/-- A rule as the policy runs it. -/
def settled (p : Policy) (r : Rule) : Rule :=
  match p.rules.get? r.key with
  | none => r
  | some s => configure r (s.severity.getD r.severity) (patternsOf s.allow)

/-- Without patterns and under its own severity a rule stays what it is. -/
theorem configure_self (r : Rule) : configure r r.severity [] = r := rfl

/-- The shortcut for settings that change nothing does not matter. -/
theorem underPolicy_eq_settled {p : Policy} {r r' : Rule} (h : underPolicy p r = .ok r') :
    r' = settled p r := by
  unfold underPolicy at h
  unfold settled
  cases hs : p.rules.get? r.key with
  | none =>
    rw [hs] at h
    exact (Except.ok.inj h).symm
  | some s =>
    simp only [hs] at h
    by_cases hplain : (s.severity.isNone && s.allow.isEmpty) = true
    · rw [if_pos hplain] at h
      obtain ⟨hsev, hallow⟩ : s.severity = none ∧ s.allow = [] := by simpa using hplain
      simp only [hsev, hallow]
      exact (Except.ok.inj h).symm.trans (configure_self r).symm
    · rw [if_neg hplain, bind_eq_ok_iff] at h
      obtain ⟨patterns, hread, hr⟩ := h
      rw [readAllowList_eq_patternsOf hread] at hr
      exact (Except.ok.inj hr).symm

/-- The settings of a policy make one of the rules that can be made of a rule by settings. -/
theorem exists_settled_eq (p : Policy) (r : Rule) :
    ∃ severity patterns, settled p r = configure r severity patterns := by
  unfold settled
  split
  · exact ⟨r.severity, [], (configure_self r).symm⟩
  · exact ⟨_, _, rfl⟩

@[simp] theorem settled_key (p : Policy) (r : Rule) : (settled p r).key = r.key := by
  unfold settled
  split <;> rfl

@[simp] theorem settled_applies (p : Policy) (r : Rule) (kind : ResourceKind) :
    (settled p r).applies kind = r.applies kind := by
  unfold settled
  split <;> rfl

/-- To register rules under a policy is to register them as the policy runs them. -/
theorem registerAll_settled {p : Policy} {rules : List Rule} {c c' : Catalog}
    (h : rules.foldlM (fun c r => do c.register (← underPolicy p r)) c = .ok c') :
    (rules.map (settled p)).foldlM Catalog.register c = .ok c' := by
  induction rules generalizing c with
  | nil => exact h
  | cons r rules ih =>
    simp only [List.foldlM_cons, bind_eq_ok_iff] at h
    obtain ⟨d, ⟨r', hr', hd⟩, hrest⟩ := h
    rw [underPolicy_eq_settled hr'] at hd
    rw [List.map_cons, List.foldlM_cons, bind_eq_ok_iff]
    exact ⟨d, hd, ih hrest⟩

/-- A catalog holds the enabled built-in rules, each as the policy runs it. -/
theorem catalog_spec {p : Policy} {c : Catalog} (h : catalog p = .ok c) :
    c.Keyed ∧ c.toList.Perm (((builtin p).filter fun r => p.enables r.key).map (settled p)) := by
  obtain ⟨hkeyed, hperm⟩ := Catalog.keyed_empty.registerAll (registerAll_settled h)
  exact ⟨hkeyed, by simpa using hperm⟩

/-- The rules of a catalog have every property that the built-in rules have and that settings
preserve. -/
theorem forall_mem_catalog {P : Rule → Prop} {p : Policy} {c : Catalog} (h : catalog p = .ok c)
    (hbuiltin : ∀ r ∈ builtin p, P r)
    (hconfigure : ∀ r severity patterns, P r → P (configure r severity patterns)) :
    ∀ r ∈ c.toList, P r := by
  intro r hr
  obtain ⟨b, hb, rfl⟩ := List.mem_map.1 ((catalog_spec h).2.mem_iff.1 hr)
  have hP := hbuiltin b (List.mem_of_mem_filter hb)
  unfold settled
  cases p.rules.get? b.key with
  | none => exact hP
  | some s => exact hconfigure b _ _ hP

/-- Rules with distinct keys can be registered when each of them can run under the policy. -/
theorem exists_registerAll {p : Policy} {rules : List Rule} {c : Catalog} (hc : c.Keyed)
    (hn : (rules.map Rule.key).Nodup) (hfree : ∀ r ∈ rules, c.rules.contains r.key = false)
    (hrun : ∀ r ∈ rules, ∃ r', underPolicy p r = .ok r') :
    ∃ c', rules.foldlM (fun c r => do c.register (← underPolicy p r)) c = .ok c' := by
  induction rules generalizing c with
  | nil => exact ⟨c, rfl⟩
  | cons r rules ih =>
    obtain ⟨hnew, hn⟩ := List.nodup_cons.1 hn
    obtain ⟨r', hr'⟩ := hrun r List.mem_cons_self
    have hkey : r'.key = r.key := by rw [underPolicy_eq_settled hr', settled_key]
    have hd : c.register r' = .ok ⟨c.rules.insert r'.key r'⟩ :=
      Catalog.register_eq_ok_iff.2 ⟨hkey ▸ hfree r List.mem_cons_self, rfl⟩
    obtain ⟨c', hc'⟩ := ih (hc.register hd) hn
      (fun s hs => by
        have hne : s.key ≠ r'.key := by
          intro heq
          exact hnew (List.mem_map.2 ⟨s, hs, heq.trans hkey⟩)
        simp [KeyMap.contains_insert, hne, hfree s (List.mem_cons_of_mem _ hs)])
      (fun s hs => hrun s (List.mem_cons_of_mem _ hs))
    refine ⟨c', ?_⟩
    rw [List.foldlM_cons, bind_eq_ok_iff]
    exact ⟨_, bind_eq_ok_iff.2 ⟨r', hr', hd⟩, hc'⟩

/-- Only the rule about blocks looks at other resources, and no other rule reads the type token. -/
theorem eq_publicAccessBlockRequired_or {p : Policy} {r : Rule} (hr : r ∈ builtin p) :
    r = publicAccessBlockRequired ∨
      ∀ s token g g', r.judge { s with typeToken := token } g = r.judge s g' := by
  simp only [builtin, List.mem_cons, List.not_mem_nil, or_false] at hr
  rcases hr with rfl | rfl | rfl | rfl | rfl | rfl | rfl | rfl | rfl | rfl
  case inr.inr.inr.inr.inl => exact .inl rfl
  all_goals exact .inr fun _ _ _ _ => rfl

/-- The keys do not depend on the required labels, the only part of a rule that is set here. -/
theorem map_key_builtin (p : Policy) : (builtin p).map Rule.key = RuleKey.all := rfl

theorem nodup_builtin_keys (p : Policy) : ((builtin p).map Rule.key).Nodup := by
  rw [map_key_builtin]
  decide

/-- Without settings for single rules every built-in rule is registered as it is. -/
theorem exists_catalog_bare (p : Policy) : ∃ c, catalog p.bare = .ok c := by
  refine exists_registerAll Catalog.keyed_empty ?_ (fun _ _ => rfl) (fun r _ => ⟨r, rfl⟩)
  exact (nodup_builtin_keys _).sublist (List.filter_sublist.map _)

theorem catalog_bare_spec {p : Policy} {c : Catalog} (h : catalog p.bare = .ok c) :
    c.Keyed ∧ c.toList.Perm (builtin p) := by
  obtain ⟨hkeyed, hperm⟩ := catalog_spec h
  have hsettled : settled p.bare = id := rfl
  have henabled : (builtin p.bare).filter (fun r => p.bare.enables r.key) = builtin p :=
    List.filter_eq_self.2 fun _ _ => rfl
  rw [hsettled, List.map_id, henabled] at hperm
  exact ⟨hkeyed, hperm⟩

theorem mem_rulesFor_bare_iff {p : Policy} {c : Catalog} (h : catalog p.bare = .ok c)
    {kind : ResourceKind} {r : Rule} :
    r ∈ c.rulesFor kind ↔ r ∈ builtin p ∧ r.applies kind = true := by
  rw [(c.rulesFor_perm kind).mem_iff, List.mem_filter, (catalog_bare_spec h).2.mem_iff]

end Rules

namespace Policy

/-- Whether the resource with the given id is exempted from a rule: a pattern of its allow list
matches the id. -/
def exempts (p : Policy) (key id : String) : Bool :=
  (((p.rules.get? key).map (·.allow)).getD []).any fun pattern =>
    (Glob.parse pattern).toOption.any (Glob.isMatch · id)

/-- The severity of a rule that has the given one by itself. -/
def severityOf (p : Policy) (key : String) (own : Severity) : Severity :=
  ((p.rules.get? key).bind (·.severity)).getD own

/-- A verdict as the settings of its rule make it. An exemption leaves nothing of a violation, not
even of one that stands for a fault. -/
def settle (p : Policy) (v : Verdict) : Verdict :=
  let v := { v with severity := p.severityOf v.ruleKey v.severity }
  if p.exempts v.ruleKey v.resourceId then
    { v with
      outcome := .notApplicable
      message := Rules.exemptionMessage v.resourceId v.ruleKey
      help := none
      fingerprint := none }
  else v

/-- The verdicts of a run as the settings of a policy make them, resource by resource. -/
def settleAll (p : Policy) (g : Graph) (vs : List Verdict) : List Verdict :=
  g.resources.flatMap fun s =>
    (((vs.filter (·.resourceId = s.id)).filter (p.enables ·.ruleKey)).map p.settle).mergeSort
      fun a b => Standing.before a.standing b.standing

end Policy

namespace Rules

theorem isExempt_patternsOf (allow : List String) (id : String) :
    isExempt (patternsOf allow) id =
      allow.any fun pattern => (Glob.parse pattern).toOption.any (Glob.isMatch · id) := by
  induction allow with
  | nil => rfl
  | cons pattern allow ih =>
    rw [List.any_cons, ← ih]
    cases hp : (Glob.parse pattern).toOption <;> simp [patternsOf, isExempt, hp]

theorem ofRule_configure (r : Rule) (severity : Severity) (patterns : List (List Glob.Part))
    (s : Resource) (g : Graph) :
    Evaluation.ofRule (configure r severity patterns) s g =
      if isExempt patterns s.id then .notApplicable (exemptionMessage s.id r.key)
      else Evaluation.ofRule r s g := by
  unfold Evaluation.ofRule configure
  by_cases hexempt : isExempt patterns s.id = true
  · simp only [if_pos hexempt]
  · simp only [if_neg hexempt]

/-- A rule as the policy runs it gives the verdict that the rule itself gives, settled. -/
theorem ofRule_settled (p : Policy) (g : Graph) (s : Resource) (r : Rule) :
    Verdict.ofRule g s (settled p r) = p.settle (Verdict.ofRule g s r) := by
  have hkey : (Verdict.ofRule g s r).ruleKey = r.key := rfl
  have hid : (Verdict.ofRule g s r).resourceId = s.id := rfl
  unfold Policy.settle
  simp only [hkey, hid, Policy.exempts, Policy.severityOf]
  unfold settled
  cases hs : p.rules.get? r.key with
  | none => rfl
  | some t =>
    simp only [Option.map_some, Option.getD_some, Option.bind_some, ← isExempt_patternsOf]
    unfold Verdict.ofRule
    simp only [ofRule_configure]
    by_cases hexempt : isExempt (patternsOf t.allow) s.id = true
    · simp only [if_pos hexempt]
      rfl
    · simp only [if_neg hexempt]
      rfl

end Rules

/-- The verdicts on one resource are those of a whole run that name it. -/
theorem filter_verdicts_evaluate {g : Graph} {s : Resource} (hs : s ∈ g.resources) (c : Catalog) :
    (evaluate g c).verdicts.filter (·.resourceId = s.id) = verdictsOn g c s := by
  rw [verdicts_evaluate]
  have hown (t : Resource) : ∀ v ∈ verdictsOn g c t, v.resourceId = t.id := by
    intro v hv
    obtain ⟨r, -, rfl⟩ := List.mem_map.1 hv
    rfl
  have hn := g.nodup
  generalize g.resources = rs at hs hn
  induction rs with
  | nil => exact absurd hs List.not_mem_nil
  | cons t rs ih =>
    rw [List.flatMap_cons, List.filter_append]
    obtain ⟨hnew, hn⟩ := List.nodup_cons.1 hn
    by_cases hst : s = t
    · subst hst
      rw [List.filter_eq_self.2 fun v hv => by simp [hown s v hv], List.filter_eq_nil_iff.2,
        List.append_nil]
      intro v hv
      obtain ⟨u, hu, hv⟩ := List.mem_flatMap.1 hv
      have hne : u.id ≠ s.id := fun heq => hnew (List.mem_map.2 ⟨u, hu, heq⟩)
      simpa [hown u v hv] using hne
    · have hs' : s ∈ rs := (List.mem_cons.1 hs).resolve_left hst
      rw [ih hs' hn, List.filter_eq_nil_iff.2, List.nil_append]
      intro v hv
      have hne : t.id ≠ s.id := fun heq => hnew (List.mem_map.2 ⟨s, hs', heq.symm⟩)
      simpa [hown t v hv] using hne

namespace Rules

/-- On one resource, settling the rules and settling the verdicts come to the same. -/
theorem verdictsOn_settled {p : Policy} {c c₀ : Catalog} (h : catalog p = .ok c)
    (h₀ : catalog p.bare = .ok c₀) (g : Graph) (s : Resource) :
    verdictsOn g c s =
      (((verdictsOn g c₀ s).filter (p.enables ·.ruleKey)).map p.settle).mergeSort
        fun a b => Standing.before a.standing b.standing := by
  obtain ⟨hkeyed, hrules⟩ := catalog_spec h
  obtain ⟨-, hrules₀⟩ := catalog_bare_spec h₀
  -- Both sides hold one verdict for each enabled built-in rule that applies.
  let rules := (builtin p).filter fun r => r.applies s.kind && p.enables r.key
  have hleft : (verdictsOn g c s).Perm (rules.map fun r => p.settle (Verdict.ofRule g s r)) := by
    have hperm := ((c.rulesFor_perm s.kind).trans (hrules.filter _)).map (Verdict.ofRule g s)
    rw [List.filter_map, List.map_map, List.filter_filter] at hperm
    simp only [Function.comp_def, ofRule_settled, settled_applies] at hperm
    exact hperm
  have hright : (((verdictsOn g c₀ s).filter (p.enables ·.ruleKey)).map p.settle).Perm
      (rules.map fun r => p.settle (Verdict.ofRule g s r)) := by
    have hperm := ((c₀.rulesFor_perm s.kind).trans (hrules₀.filter _)).filter (p.enables ·.key)
    rw [List.filter_filter] at hperm
    simp only [Bool.and_comm (p.enables _)] at hperm
    rw [verdictsOn, List.filter_map, List.map_map]
    exact hperm.map fun r => p.settle (Verdict.ofRule g s r)
  refine Standing.eq_of_perm (hleft.trans (hright.symm.trans (List.mergeSort_perm _ _).symm)) ?_
    (List.pairwise_map.2 (hkeyed.pairwise_rulesFor s.kind))
    (Standing.pairwise_mergeSort Verdict.standing _)
  rw [verdictsOn, List.map_map]
  exact hkeyed.nodup_standing_rulesFor s.kind

end Rules

/-- A policy does to a report exactly what its settings say: the run without settings for single
rules gives the same verdicts once these are settled. -/
theorem verdicts_evaluate_eq_settleAll {p : Policy} {c : Catalog} (h : Rules.catalog p = .ok c)
    (g : Graph) :
    ∃ c₀, Rules.catalog p.bare = .ok c₀ ∧
      (evaluate g c).verdicts = p.settleAll g (evaluate g c₀).verdicts := by
  obtain ⟨c₀, h₀⟩ := Rules.exists_catalog_bare p
  refine ⟨c₀, h₀, ?_⟩
  rw [verdicts_evaluate, Policy.settleAll]
  apply List.flatMap_congr
  intro s hs
  rw [filter_verdicts_evaluate hs, Rules.verdictsOn_settled h h₀]

/-- One bucket, of which nothing is known but its id. -/
def legacyGraph : Graph where
  resources := [.ofKind "legacy-logs" .bucket]
  positions := Graph.positionsOf [.ofKind "legacy-logs" .bucket]
  referrers := Graph.referrersOf [.ofKind "legacy-logs" .bucket]
  positions_eq := rfl
  referrers_eq := rfl
  nodup := by decide
  closed := rfl

/-- Leaves a rule out, overrides the severity of another one and exempts from a third. -/
def legacyPolicy : Policy :=
  { Policy.strict with
    rules := .ofList [
      (RuleKey.noPublicAcl, { enabled := false }),
      (RuleKey.versioningRequired, { severity := some .low }),
      (RuleKey.encryptionRequired, { severity := some .critical, allow := ["legacy-*"] })] }

theorem verdicts_evaluate_legacy :
    legacyPolicy.enables RuleKey.noPublicAcl = false ∧
      legacyPolicy.severityOf RuleKey.versioningRequired .medium = .low ∧
      legacyPolicy.exempts RuleKey.encryptionRequired "legacy-logs" = true ∧
      ∃ c c₀, Rules.catalog legacyPolicy = .ok c ∧ Rules.catalog legacyPolicy.bare = .ok c₀ ∧
        (evaluate legacyGraph c).verdicts =
          legacyPolicy.settleAll legacyGraph (evaluate legacyGraph c₀).verdicts := by
  refine ⟨by decide +kernel, by decide +kernel, by decide +kernel, ?_⟩
  obtain ⟨c, h, -⟩ : ∃ c, Rules.catalog legacyPolicy = .ok c ∧ c.size = 9 :=
    exists_eq_ok_of_map (by decide +kernel)
  obtain ⟨c₀, h₀, hverdicts⟩ := verdicts_evaluate_eq_settleAll h legacyGraph
  exact ⟨c, c₀, h, h₀, hverdicts⟩

end StackAudit
