import Mathlib.Data.List.Nodup
import StackAudit.Report

/-!
# Counts of violations

A summary counts the violations of a list of verdicts in machine words. The counts are those of the
list, up to the size of a word, and so are the sums that are formed of them.
-/
namespace StackAudit

/-- Whether a verdict is a violation of at least the given severity. -/
def Verdict.reaches (threshold : Severity) (v : Verdict) : Bool :=
  v.isViolation && threshold ≤ v.severity

theorem Verdict.reaches_eq_true_iff {threshold : Severity} {v : Verdict} :
    v.reaches threshold = true ↔ v.outcome = .violation ∧ threshold ≤ v.severity := by
  simp [reaches, isViolation]

/-- A violation that reaches a severity reaches the lower ones. -/
theorem Verdict.reaches_of_le {threshold threshold' : Severity} (hle : threshold ≤ threshold')
    {v : Verdict} (h : v.reaches threshold' = true) : v.reaches threshold = true := by
  rw [reaches_eq_true_iff] at h ⊢
  obtain ⟨hviolation, hreached⟩ := h
  refine ⟨hviolation, ?_⟩
  rw [Severity.le_iff_rank] at *
  omega

namespace SeverityCounts

/-- One more finding adds one to a sum over distinct severities that its own is among. -/
theorem sum_map_get_bump {l : List Severity} (hn : l.Nodup) (c : SeverityCounts) (s : Severity) :
    sum (l.map (c.bump s).get) = sum (l.map c.get) + if s ∈ l then 1 else 0 := by
  induction l with
  | nil => rfl
  | cons t l ih =>
    obtain ⟨hnew, hn⟩ := List.nodup_cons.1 hn
    have hsum (c : SeverityCounts) : sum ((t :: l).map c.get) = c.get t + sum (l.map c.get) := rfl
    rw [hsum, hsum, ih hn]
    by_cases hst : s = t
    · subst hst
      rw [get_bump_self, if_neg hnew, if_pos List.mem_cons_self, UInt32.add_zero, UInt32.add_assoc,
        UInt32.add_assoc, UInt32.add_comm 1]
    · have hmem : s ∈ t :: l ↔ s ∈ l := by simp [hst]
      rw [get_bump_of_ne c hst, UInt32.add_assoc]
      simp only [hmem]

theorem atOrAbove_bump (c : SeverityCounts) (s threshold : Severity) :
    (c.bump s).atOrAbove threshold = c.atOrAbove threshold + if threshold ≤ s then 1 else 0 := by
  have hn : (Severity.all.filter (threshold ≤ ·)).Nodup := List.Nodup.filter _ (by decide)
  have hmem : s ∈ Severity.all.filter (threshold ≤ ·) ↔ threshold ≤ s := by
    simp [Severity.mem_all]
  unfold atOrAbove
  rw [sum_map_get_bump hn]
  simp only [hmem]

end SeverityCounts

namespace Summary

/-- Counts that do not exceed the greatest word are kept. -/
theorem toNat_saturate {n : Nat} (h : n < UInt32.size) : (saturate n).toNat = n := by
  have hmin : min n 4294967295 = n := Nat.min_eq_left (Nat.le_of_lt_succ h)
  rw [saturate, hmin, UInt32.toNat_ofNat_of_lt' h]

/-- Counting a verdict counts it for every threshold that it reaches. -/
theorem atOrAbove_violations_count (s : Summary) (v : Verdict) (threshold : Severity) :
    (s.count v).violations.atOrAbove threshold =
      s.violations.atOrAbove threshold + if v.reaches threshold then 1 else 0 := by
  unfold count
  cases hv : v.outcome with
  | violation =>
    simp only [SeverityCounts.atOrAbove_bump, Verdict.reaches_eq_true_iff, hv, true_and]
  | pass => simp [Verdict.reaches, Verdict.isViolation, hv]
  | notApplicable => simp [Verdict.reaches, Verdict.isViolation, hv]

theorem violationCount_count (s : Summary) (v : Verdict) :
    (s.count v).violationCount = s.violationCount + if v.isViolation then 1 else 0 := by
  unfold count
  cases hv : v.outcome <;> simp [Verdict.isViolation, hv]

/-- A number that goes up by one for each verdict of some sort counts these, up to the size of a
word. -/
theorem foldl_count_eq {f : Summary → UInt32} {p : Verdict → Bool}
    (h : ∀ s v, f (s.count v) = f s + if p v then 1 else 0) (vs : List Verdict) (s : Summary) :
    f (vs.foldl count s) = f s + UInt32.ofNat (vs.countP p) := by
  induction vs generalizing s with
  | nil => simp
  | cons v vs ih =>
    have hone : UInt32.ofNat (if p v then 1 else 0) = if p v then 1 else 0 := by
      split <;> rfl
    rw [List.foldl_cons, ih, h, List.countP_cons, UInt32.ofNat_add, hone, UInt32.add_assoc,
      UInt32.add_comm (ite _ _ _)]

/-- A summary counts the violations that reach a threshold, up to the size of a word. -/
theorem atOrAbove_violations_ofVerdicts (vs : List Verdict) (n : Nat) (threshold : Severity) :
    (ofVerdicts vs n).violations.atOrAbove threshold =
      UInt32.ofNat (vs.countP (Verdict.reaches threshold)) := by
  have hnone : SeverityCounts.atOrAbove {} threshold = 0 := by
    cases threshold <;> rfl
  refine (foldl_count_eq (f := (·.violations.atOrAbove threshold))
    (fun s v => atOrAbove_violations_count s v threshold) vs _).trans ?_
  change SeverityCounts.atOrAbove {} threshold + _ = _
  rw [hnone, UInt32.zero_add]

/-- It also counts all violations. -/
theorem violationCount_ofVerdicts (vs : List Verdict) (n : Nat) :
    (ofVerdicts vs n).violationCount = UInt32.ofNat (vs.countP Verdict.isViolation) := by
  refine (foldl_count_eq violationCount_count vs _).trans ?_
  exact UInt32.zero_add _

end Summary

end StackAudit
