import StackAudit.Proofs.Config.Layers
import StackAudit.Proofs.Policy

/-!
# Configurations that resolve

Patterns are read twice: when a configuration is resolved, and when the catalog is built. What the
first reading lets pass the second one takes, in every entry that the presets, the configuration and
their layers can leave in a policy. So a configuration that resolves has a catalog, and every
built-in rule is in it that is not disabled.
-/
namespace StackAudit

/-- The settings are those of a built-in rule, and exempt by patterns that can be read. -/
structure RulePolicy.IsAdmissible (s : RulePolicy) (key : String) : Prop where
  known : key ∈ RuleKey.all
  readable : ∀ pattern ∈ s.allow, ∃ parts, Glob.parse pattern = .ok parts

/-- Every entry is admissible. -/
def Policy.AllAdmissible (rules : KeyMap RulePolicy) : Prop :=
  ∀ key s, rules.get? key = some s → s.IsAdmissible key

namespace Policy

/-! ### What resolving keeps -/

theorem isAdmissible_layer {old s : RulePolicy} {key : String} {c : RuleConfig}
    (hold : old.IsAdmissible key) (h : layer old key c = .ok s) : s.IsAdmissible key := by
  obtain ⟨hlayered, hallow⟩ := layer_eq_ok_iff.1 h
  refine ⟨hold.known, ?_⟩
  rw [hlayered.allow]
  split
  · exact hold.readable
  · exact hallow

theorem allAdmissible_layerRule {rules rules' : KeyMap RulePolicy} {e : String × RuleConfig}
    (hrules : AllAdmissible rules) (h : layerRule rules e = .ok rules') : AllAdmissible rules' := by
  obtain ⟨hknown, s, hs, rfl⟩ := layerRule_eq_ok_iff.1 h
  have hold : ((rules.get? e.1).getD {}).IsAdmissible e.1 := by
    cases hget : rules.get? e.1 with
    | none => exact ⟨hknown, by simp⟩
    | some old => exact hrules _ _ hget
  intro key t ht
  rw [KeyMap.get?_insert] at ht
  split at ht
  · rename_i hkey
    obtain rfl := Option.some.inj ht
    exact hkey ▸ isAdmissible_layer hold hs
  · exact hrules key t ht

/-- The presets exempt nothing. -/
theorem allAdmissible_preset (profile : String) : AllAdmissible (preset profile).rules := by
  unfold preset
  split
  · intro key s hs
    rw [baseline, KeyMap.get?_insert] at hs
    split at hs
    · rename_i hkey
      obtain rfl := Option.some.inj hs
      exact ⟨hkey ▸ by decide, by simp⟩
    · cases hs
  · intro key s hs
    cases hs

theorem allAdmissible_resolve {cfg : Config} {o : Overrides} {p : Policy}
    (h : resolve cfg o = .ok p) : AllAdmissible p.rules := by
  obtain ⟨_, _, _, rules, -, -, -, hrules, rfl⟩ := resolve_eq_ok_iff.1 h
  exact of_foldlM_eq_ok (fun _ _ _ => allAdmissible_layerRule) (allAdmissible_preset _) hrules

end Policy

namespace Rules

/-! ### What the catalog needs -/

theorem exists_underPolicy {p : Policy} (hp : Policy.AllAdmissible p.rules) (r : Rule) :
    ∃ r', underPolicy p r = .ok r' := by
  unfold underPolicy
  cases hs : p.rules.get? r.key with
  | none => exact ⟨r, rfl⟩
  | some s =>
    simp only
    split
    · exact ⟨r, rfl⟩
    · have hread : ∃ patterns, readAllowList r.key s.allow = .ok patterns := by
        refine exists_mapM_eq_ok_iff.2 fun pattern hpattern => ?_
        obtain ⟨parts, hparts⟩ := (hp _ _ hs).readable pattern hpattern
        exact ⟨parts, by rw [hparts]⟩
      obtain ⟨patterns, hpatterns⟩ := hread
      exact ⟨_, bind_eq_ok_iff.2 ⟨patterns, hpatterns, rfl⟩⟩

/-- Nothing but the settings of single rules can keep a policy from having a catalog. -/
theorem exists_catalog_of_allAdmissible {p : Policy} (hp : Policy.AllAdmissible p.rules) :
    ∃ c, catalog p = .ok c :=
  exists_registerAll Catalog.keyed_empty
    ((nodup_builtin_keys p).sublist (List.filter_sublist.map _)) (fun _ _ => rfl)
    fun r _ => exists_underPolicy hp r

theorem size_eq_countP {p : Policy} {c : Catalog} (h : catalog p = .ok c) :
    c.size = RuleKey.all.countP p.enables := by
  have hlength := (catalog_spec h).2.length_eq
  rw [List.length_map, ← List.countP_eq_length_filter] at hlength
  rw [← map_key_builtin p, List.countP_map]
  simpa [Catalog.size, KeyMap.size, Catalog.toList, KeyMap.values, Function.comp_def] using hlength

/-- Where all settings are for built-in rules, the built-in rules that are not enabled are the
entries that say so. -/
theorem countP_not_enables {p : Policy} (hp : Policy.AllAdmissible p.rules) :
    RuleKey.all.countP (!p.enables ·) = p.rules.values.countP (!·.enabled) := by
  have hperm : (RuleKey.all.filter (!p.enables ·)).Perm
      ((p.rules.entries.filter (!·.2.enabled)).map Prod.fst) := by
    have hall : RuleKey.all.Nodup := by decide
    have hentries : ((p.rules.entries.filter (!·.2.enabled)).map Prod.fst).Nodup :=
      p.rules.nodup_keys.sublist (List.filter_sublist.map _)
    rw [List.perm_ext_iff_of_nodup (hall.filter _) hentries]
    intro key
    simp only [List.mem_filter, List.mem_map, Prod.exists, exists_and_right, exists_eq_right,
      KeyMap.mem_entries_iff, Policy.enables]
    cases hs : p.rules.get? key with
    | none => simp
    | some s =>
      have hknown := (hp _ _ hs).known
      simp [hknown]
  rw [List.countP_eq_length_filter, hperm.length_eq, List.length_map, KeyMap.values,
    List.countP_map, List.countP_eq_length_filter]
  rfl

end Rules

/-- A configuration that resolves gives a policy with a catalog, of all built-in rules but those that
the policy disables. -/
theorem exists_catalog_of_resolve {cfg : Config} {o : Overrides} {p : Policy}
    (h : Policy.resolve cfg o = .ok p) :
    ∃ c, Rules.catalog p = .ok c ∧ c.size + p.rules.values.countP (!·.enabled) = 10 := by
  have hp := Policy.allAdmissible_resolve h
  obtain ⟨c, hc⟩ := Rules.exists_catalog_of_allAdmissible hp
  refine ⟨c, hc, ?_⟩
  rw [Rules.size_eq_countP hc, ← Rules.countP_not_enables hp]
  have hten : RuleKey.all.length = 10 := rfl
  rw [← hten, List.length_eq_countP_add_countP p.enables]
  simp

/-- Disables a rule, and exempts from one that the preset has settings for. -/
def lenientConfig : Config where
  profile := some "baseline"
  rules := .ofList [
    (RuleKey.versioningRequired, { enabled := some false, severity := some "LOW" }),
    (RuleKey.accessLoggingRecommended, { allow := ["legacy-*", "\x7ba,b\x7d-logs"] })]

theorem exists_catalog_of_resolve_lenient :
    ∃ p c, Policy.resolve lenientConfig {} = .ok p ∧ Rules.catalog p = .ok c ∧ c.size = 9 := by
  obtain ⟨p, hp, hdisabled⟩ : ∃ p, Policy.resolve lenientConfig {} = .ok p ∧
      p.rules.values.countP (!·.enabled) = 1 :=
    exists_eq_ok_of_map (by decide +kernel)
  obtain ⟨c, hc, hsize⟩ := exists_catalog_of_resolve hp
  exact ⟨p, c, hp, hc, by omega⟩

end StackAudit
