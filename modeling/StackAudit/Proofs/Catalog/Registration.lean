import Mathlib.Data.List.Induction
import StackAudit.Proofs.Catalog

/-!
# What calls to register rules leave in a catalog

Rules are entered in a catalog one after the other, and a call may fail. Under each key the catalog
holds the first rule that was called with it: a later call with the key fails and changes nothing.
So the catalog, and with it the rules for a kind and their order, depends on the order of the calls
only where these are about one key.
-/
namespace StackAudit

/-- Whether a rule comes before another in the rules for a kind. -/
def Rule.Precedes (a b : Rule) : Prop :=
  b.severity < a.severity ∨ a.severity = b.severity ∧ a.key < b.key

theorem Rule.Precedes.asymm {a b : Rule} (h : a.Precedes b) : ¬b.Precedes a := by
  rintro (hlt | ⟨hsame, hkey⟩)
  · rcases h with hlt' | ⟨hsame, -⟩
    · exact Nat.lt_asymm hlt hlt'
    · rw [hsame] at hlt
      exact Nat.lt_irrefl _ hlt
  · rcases h with hlt | ⟨-, hkey'⟩
    · rw [hsame] at hlt
      exact Nat.lt_irrefl _ hlt
    · exact String.lt_asymm hkey hkey'

/-- How far calls to enter rules have come. -/
structure Intake where
  /-- The rules whose calls succeeded, in the order of the calls. -/
  accepted : List Rule
  /-- The catalog that the calls left. -/
  catalog : Catalog

namespace Intake

/-- A further call. -/
def call (s : Intake) (r : Rule) : Intake :=
  match (Catalog.enter r).run s.catalog with
  | .ok _ c => ⟨s.accepted ++ [r], c⟩
  | .error _ c => ⟨s.accepted, c⟩

/-- What calls in turn make of the empty catalog. -/
def ofCalls (calls : List Rule) : Intake := calls.foldl call ⟨[], ∅⟩

/-- Whether the same calls were made, up to the order of calls with different keys. -/
def SameByKey (calls calls' : List Rule) : Prop :=
  ∀ key, calls'.filter (·.key = key) = calls.filter (·.key = key)

end Intake

namespace Catalog

theorem Keyed.contains_iff {c : Catalog} (hc : c.Keyed) {key : String} :
    c.rules.contains key = true ↔ ∃ r ∈ c.toList, r.key = key := by
  rw [← KeyMap.mem_keys_iff, hc.keys_eq, List.mem_map]

/-- A rule in a catalog is ordered against every other for a kind. -/
theorem Keyed.pairwise_precedes {c : Catalog} (hc : c.Keyed) (kind : ResourceKind) :
    (c.rulesFor kind).Pairwise Rule.Precedes := by
  have hkeys := List.pairwise_map.1 (hc.nodup_key_rulesFor kind)
  refine ((hc.pairwise_rulesFor kind).and hkeys).imp ?_
  rintro a b ⟨hbefore, hne⟩
  rw [Standing.before_iff] at hbefore
  rcases hbefore with hlt | ⟨hrank, hle⟩
  · exact .inl hlt
  · exact .inr ⟨Severity.rank_injective hrank, Std.lt_of_le_of_ne hle hne⟩

end Catalog

namespace Intake

variable {s : Intake} {calls calls' : List Rule} {r : Rule}

/-- What is known after calls: the catalog holds the accepted rules, and under each key the first
rule that was called with it. -/
structure Sound (s : Intake) (calls : List Rule) : Prop where
  keyed : s.catalog.Keyed
  perm : s.catalog.toList.Perm s.accepted
  first : ∀ key, s.catalog.get? key = calls.find? (·.key = key)

theorem sound_nil : Sound ⟨[], ∅⟩ [] := ⟨Catalog.keyed_empty, .refl _, fun _ => rfl⟩

/-- A key is taken when a call with it was accepted. -/
theorem Sound.contains_iff (h : s.Sound calls) {key : String} :
    s.catalog.rules.contains key = true ↔ ∃ r ∈ s.accepted, r.key = key := by
  rw [h.keyed.contains_iff]
  simp only [h.perm.mem_iff]

/-- One further call keeps to that. -/
theorem Sound.call (h : s.Sound calls) (r : Rule) : (s.call r).Sound (calls ++ [r]) := by
  have hfirst (key : String) : (calls ++ [r]).find? (·.key = key) =
      (s.catalog.get? key).or (if r.key = key then some r else none) := by
    rw [List.find?_append, h.first key]
    simp
  unfold Intake.call
  rw [Catalog.run_enter]
  by_cases htaken : s.catalog.rules.contains r.key = true
  · rw [if_pos htaken]
    refine ⟨h.keyed, h.perm, fun key => ?_⟩
    rw [hfirst]
    by_cases hkey : r.key = key
    · subst hkey
      exact (Option.or_of_isSome htaken).symm
    · rw [if_neg hkey, Option.or_none]
  · rw [if_neg htaken]
    rw [Bool.not_eq_true] at htaken
    let c : Catalog := ⟨s.catalog.rules.insert r.key r⟩
    have hcall : s.catalog.register r = .ok c := Catalog.register_eq_ok_iff.2 ⟨htaken, rfl⟩
    refine ⟨h.keyed.register hcall, ?_, fun key => ?_⟩
    · calc c.toList
        _ |>.Perm (r :: s.catalog.toList) := Catalog.toList_register_perm hcall
        _ |>.Perm (r :: s.accepted) := h.perm.cons r
        _ |>.Perm (s.accepted ++ [r]) := (List.perm_append_singleton r s.accepted).symm
    · have hget : c.get? key = if key = r.key then some r else s.catalog.get? key :=
        KeyMap.get?_insert s.catalog.rules r.key key r
      rw [hfirst, hget]
      by_cases hkey : r.key = key
      · subst hkey
        have hnone : s.catalog.get? r.key = none := by
          rw [← Option.not_isSome_iff_eq_none, Bool.not_eq_true]
          exact htaken
        rw [if_pos rfl, if_pos rfl, hnone, Option.none_or]
      · rw [if_neg (Ne.symm hkey), if_neg hkey, Option.or_none]

theorem ofCalls_concat (calls : List Rule) (r : Rule) :
    ofCalls (calls ++ [r]) = (ofCalls calls).call r := List.foldl_concat _ _ _ _

/-- So it is known after any calls. -/
theorem sound_ofCalls (calls : List Rule) : (ofCalls calls).Sound calls := by
  induction calls using List.reverseRecOn with
  | nil => exact sound_nil
  | append_singleton calls r ih =>
    rw [ofCalls_concat]
    exact ih.call r

/-- A call fails when its key is taken, and then the catalog is kept. -/
theorem run_enter_eq_error_iff {c c' : Catalog} {e : CatalogError} :
    (Catalog.enter r).run c = .error e c' ↔
      c.rules.contains r.key = true ∧ e = .duplicateKey r.key ∧ c' = c := by
  rw [Catalog.run_enter]
  cases c.rules.contains r.key <;> simp [eq_comm]

/-- Calls that are the same key by key make the same catalog. -/
theorem catalog_eq_of_sameByKey (h : SameByKey calls calls') :
    (ofCalls calls').catalog = (ofCalls calls).catalog := by
  have hrules : (ofCalls calls').catalog.rules = (ofCalls calls).catalog.rules := by
    refine KeyMap.ext_get? fun key => ?_
    calc (ofCalls calls').catalog.get? key
      _ = calls'.find? (·.key = key) := (sound_ofCalls calls').first key
      _ = (calls'.filter (·.key = key)).head? := List.head?_filter.symm
      _ = (calls.filter (·.key = key)).head? := by rw [h key]
      _ = calls.find? (·.key = key) := List.head?_filter
      _ = (ofCalls calls).catalog.get? key := ((sound_ofCalls calls).first key).symm
  exact congrArg Catalog.mk hrules

/-- A further call fails, with an error about its key, exactly if an earlier call with that key
succeeded, and then it leaves the catalog as it is. The rules for a kind are the accepted rules that
apply to it, in strict order, whatever the order of calls with different keys was. -/
theorem catalog_of_calls (calls : List Rule) :
    (∀ r, ((∃ c, (Catalog.enter r).run (ofCalls calls).catalog = .error (.duplicateKey r.key) c) ↔
          ∃ earlier ∈ (ofCalls calls).accepted, earlier.key = r.key) ∧
        ∀ e c, (Catalog.enter r).run (ofCalls calls).catalog = .error e c →
          e = .duplicateKey r.key ∧ c = (ofCalls calls).catalog) ∧
    ∀ kind,
      ((ofCalls calls).catalog.rulesFor kind).Perm
        ((ofCalls calls).accepted.filter (·.applies kind)) ∧
      ((ofCalls calls).catalog.rulesFor kind).Pairwise Rule.Precedes ∧
      ∀ calls', SameByKey calls calls' →
        (ofCalls calls').catalog.rulesFor kind = (ofCalls calls).catalog.rulesFor kind := by
  have hsound := sound_ofCalls calls
  refine ⟨fun r => ⟨?_, fun e c herror => ?_⟩, fun kind => ⟨?_, ?_, fun calls' hsame => ?_⟩⟩
  · rw [← hsound.contains_iff]
    simp [run_enter_eq_error_iff]
  · exact (run_enter_eq_error_iff.1 herror).2
  · exact (Catalog.rulesFor_perm _ kind).trans (hsound.perm.filter _)
  · exact hsound.keyed.pairwise_precedes kind
  · rw [catalog_eq_of_sameByKey hsame]

/-- A rule with which every bucket passes. -/
def passing (key : String) (severity : Severity) : Rule where
  key := key
  appliesTo := [.bucket]
  severity := severity
  judge _ _ := .ok (.pass "as it should be")

/-- Two rules want one key. -/
def contested : List Rule := [passing "tags" .low, passing "zone" .critical, passing "tags" .high]

/-- The rule with the other key comes first. -/
def contestedLater : List Rule :=
  [passing "zone" .critical, passing "tags" .low, passing "tags" .high]

theorem catalog_of_calls_contested :
    (∃ c, (Catalog.enter (passing "zone" .low)).run (ofCalls contested).catalog =
      .error (.duplicateKey "zone") c) ∧
    SameByKey contested contestedLater ∧
    (ofCalls contestedLater).catalog.rulesFor .bucket =
      (ofCalls contested).catalog.rulesFor .bucket ∧
    ((ofCalls contested).catalog.rulesFor .bucket).map Rule.standing =
      [(.critical, "zone"), (.low, "tags")] := by
  have hsame : SameByKey contested contestedLater := by
    intro key
    by_cases htags : "tags" = key
    · have hzone : "zone" ≠ key := by
        rw [← htags]
        decide
      simp [contested, contestedLater, passing, htags, hzone]
    · simp [contested, contestedLater, passing, List.filter_cons, htags]
  have haccepted : (ofCalls contested).accepted =
      [passing "tags" .low, passing "zone" .critical] := rfl
  have htaken : ∃ earlier ∈ (ofCalls contested).accepted, earlier.key = "zone" := by
    rw [haccepted]
    exact ⟨passing "zone" .critical, by simp, rfl⟩
  obtain ⟨hcalls, hkinds⟩ := catalog_of_calls contested
  obtain ⟨hperm, hordered, hlater⟩ := hkinds .bucket
  have hswap : ((ofCalls contested).accepted.filter (·.applies .bucket)).Perm
      [passing "zone" .critical, passing "tags" .low] := .swap ..
  have hpair : [passing "zone" .critical, passing "tags" .low].Pairwise Rule.Precedes :=
    List.pairwise_pair.2 (.inl (by decide))
  have hrules : (ofCalls contested).catalog.rulesFor .bucket =
      [passing "zone" .critical, passing "tags" .low] :=
    (hperm.trans hswap).eq_of_pairwise (fun _ _ _ _ h h' => absurd h' h.asymm) hordered hpair
  refine ⟨(hcalls (passing "zone" .low)).1.2 htaken, hsame, hlater contestedLater hsame, ?_⟩
  rw [hrules]
  rfl

end Intake

end StackAudit
