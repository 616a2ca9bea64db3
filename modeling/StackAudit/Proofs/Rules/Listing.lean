import StackAudit.Proofs.Policy
import StackAudit.Rules.Listing

/-!
# What is listed is what runs

The list of rules and the catalog are made from one policy by separate ways. For every kind, the
enabled entries of the list that name the kind are the rules that the catalog runs on it, in one
order and under the same severities.
-/
namespace StackAudit

def RuleEntry.standing (e : RuleEntry) : Standing := (e.severity, e.key)

namespace Rules

variable {p : Policy}

theorem listing_perm (p : Policy) : (listing p).Perm ((builtin p).map (entry p)) :=
  List.mergeSort_perm _ _

theorem pairwise_listing (p : Policy) :
    (listing p).Pairwise fun a b => Standing.before a.standing b.standing = true :=
  Standing.pairwise_mergeSort RuleEntry.standing _

/-- A rule is listed under the severity under which it runs. -/
theorem standing_entry (p : Policy) (r : Rule) :
    (entry p r).standing = (settled p r).standing := by
  unfold entry settled
  cases p.rules.get? r.key <;> rfl

theorem contains_kindNames_entry (p : Policy) (r : Rule) (kind : ResourceKind) :
    (entry p r).kindNames.contains kind.name = r.applies kind := by
  have hname (k : ResourceKind) : k.name = kind.name ↔ k = kind := by
    cases k
    cases kind
    simp
  rw [Bool.eq_iff_iff]
  simp [RuleEntry.kindNames, entry, Rule.applies, hname]

/-- The built-in rules that the policy lets run on a kind. -/
def enabledFor (p : Policy) (kind : ResourceKind) : List Rule :=
  (builtin p).filter fun r => p.enables r.key && r.applies kind

theorem standing_rulesFor_perm {c : Catalog} (h : catalog p = .ok c) (kind : ResourceKind) :
    ((c.rulesFor kind).map Rule.standing).Perm
      ((enabledFor p kind).map fun r => (settled p r).standing) := by
  have hperm := ((c.rulesFor_perm kind).trans ((catalog_spec h).2.filter _)).map Rule.standing
  rw [List.filter_map, List.map_map, List.filter_filter] at hperm
  simp only [Function.comp_def, settled_applies, Bool.and_comm (Rule.applies _ _)] at hperm
  exact hperm

/-- The enabled entries that name a kind. -/
def listedFor (p : Policy) (kind : ResourceKind) : List RuleEntry :=
  (listing p).filter fun e => e.enabled && e.kindNames.contains kind.name

theorem standing_listedFor_perm (p : Policy) (kind : ResourceKind) :
    ((listedFor p kind).map RuleEntry.standing).Perm
      ((enabledFor p kind).map fun r => (settled p r).standing) := by
  have hperm := ((listing_perm p).filter fun e =>
    e.enabled && e.kindNames.contains kind.name).map RuleEntry.standing
  rw [List.filter_map, List.map_map] at hperm
  simp only [Function.comp_def, standing_entry, contains_kindNames_entry] at hperm
  exact hperm

theorem keys_perm_listing {c : Catalog} (h : catalog p = .ok c) :
    c.rules.keys.Perm (((listing p).filter (·.enabled)).map (·.key)) := by
  obtain ⟨hkeyed, hrules⟩ := catalog_spec h
  have hkeys := hrules.map Rule.key
  rw [← hkeyed.keys_eq, List.map_map] at hkeys
  simp only [Function.comp_def, settled_key] at hkeys
  have hlisted := ((listing_perm p).filter (·.enabled)).map (·.key)
  rw [List.filter_map, List.map_map] at hlisted
  exact hkeys.trans hlisted.symm

/-- What is listed as enabled for a kind is what the catalog runs on it, in the same order and under
the same severities; and the catalog has the keys of the enabled entries, each once. -/
theorem standing_rulesFor_eq_listing {c : Catalog} (h : catalog p = .ok c) :
    (∀ kind, (c.rulesFor kind).map Rule.standing = (listedFor p kind).map RuleEntry.standing) ∧
    c.rules.keys.Perm (((listing p).filter (·.enabled)).map (·.key)) := by
  refine ⟨fun kind => ?_, keys_perm_listing h⟩
  have hkeyed := (catalog_spec h).1
  have hperm := (standing_rulesFor_perm h kind).trans (standing_listedFor_perm p kind).symm
  refine Standing.eq_of_perm (f := id) hperm ?_ ?_ ?_
  · rw [List.map_id]
    exact hkeyed.nodup_standing_rulesFor kind
  · exact List.pairwise_map.2 (hkeyed.pairwise_rulesFor kind)
  · exact List.pairwise_map.2 ((pairwise_listing p).filter _)

/-- Disables a rule for which it also sets a severity, and moves another one to the end. -/
def mutedPolicy : Policy :=
  { Policy.strict with
    rules := .ofList [
      (RuleKey.versioningRequired, { enabled := false, severity := some .critical }),
      (RuleKey.encryptionRequired, { severity := some .low, allow := ["legacy-*"] })] }

theorem standing_rulesFor_eq_listing_muted :
    ∃ c, catalog mutedPolicy = .ok c ∧
      (c.rulesFor .bucket).map Rule.standing =
        (listedFor mutedPolicy .bucket).map RuleEntry.standing ∧
      c.rules.keys.Perm (((listing mutedPolicy).filter (·.enabled)).map (·.key)) ∧
      RuleKey.versioningRequired ∉ c.rules.keys := by
  obtain ⟨c, hc, hkeys⟩ : ∃ c, catalog mutedPolicy = .ok c ∧
      c.rules.keys.contains RuleKey.versioningRequired = false :=
    exists_eq_ok_of_map (by decide +kernel)
  obtain ⟨hrules, hperm⟩ := standing_rulesFor_eq_listing hc
  exact ⟨c, hc, hrules .bucket, hperm, by simpa using hkeys⟩

end Rules

end StackAudit
