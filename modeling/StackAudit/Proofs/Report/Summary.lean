import Mathlib.Algebra.BigOperators.Group.List.Lemmas
import Mathlib.Algebra.GroupWithZero.Nat
import Mathlib.Data.List.Induction
import StackAudit.Proofs.Report

/-!
# What a summary tells

A summary is formed verdict by verdict. As long as machine words can count the verdicts, it tells
how many there are of each outcome, how many violations of each severity, and which severity is the
greatest. There is only one summary that tells this of a list, so the order of the verdicts does not
matter.
-/
namespace StackAudit

/-- The elements with some property are those of them that have each value of a function, counted
together. -/
theorem sum_countP_eq_countP {α β : Type} [DecidableEq β] (f : α → β) (p : α → Bool) {bs : List β}
    (hn : bs.Nodup) (hall : ∀ a, f a ∈ bs) (l : List α) :
    (bs.map fun b => l.countP fun a => p a && f a = b).sum = l.countP p := by
  induction l with
  | nil => simp
  | cons a l ih =>
    have hone : (bs.map fun b => if p a && f a = b then 1 else 0).sum = if p a then 1 else 0 := by
      have hother : ∀ b, b ≠ f a → b ∈ bs → (if p a && f a = b then 1 else 0) = 0 := by
        intro b hb _
        simp [Ne.symm hb]
      rw [List.sum_map_eq_nsmul_single (f a) _ hother, List.count_eq_one_of_mem hn (hall a)]
      simp
    simp only [List.countP_cons, List.sum_map_add, ih, hone]

/-! ### The worst severity -/

/-- Whether it is the greatest severity of a violation, or none where there is no violation. -/
def IsWorst (vs : List Verdict) : Option Severity → Prop
  | none => ∀ v ∈ vs, v.isViolation = false
  | some s => (∃ v ∈ vs, v.isViolation = true ∧ v.severity = s) ∧
      ∀ v ∈ vs, v.isViolation = true → v.severity ≤ s

namespace IsWorst

variable {vs vs' : List Verdict} {w w' : Option Severity} {v : Verdict}

theorem perm (h : IsWorst vs w) (hp : vs'.Perm vs) : IsWorst vs' w := by
  cases w <;> simpa only [IsWorst, hp.mem_iff] using h

theorem unique (h : IsWorst vs w) (h' : IsWorst vs w') : w = w' := by
  cases w with
  | none =>
    cases w' with
    | none => rfl
    | some s' =>
      obtain ⟨⟨v, hv, hviolation, -⟩, -⟩ := h'
      rw [h v hv] at hviolation
      cases hviolation
  | some s =>
    obtain ⟨⟨v, hv, hviolation, hs⟩, hle⟩ := h
    cases w' with
    | none =>
      rw [h' v hv] at hviolation
      cases hviolation
    | some s' =>
      obtain ⟨⟨v', hv', hviolation', hs'⟩, hle'⟩ := h'
      have hss' : s ≤ s' := hs ▸ hle' v hv hviolation
      have hs's : s' ≤ s := hs' ▸ hle v' hv' hviolation'
      exact congrArg some (Severity.rank_injective (Nat.le_antisymm hss' hs's))

/-- Verdicts that are no violations do not count. -/
theorem concat_of_not_violation (h : IsWorst vs w) (hv : v.isViolation = false) :
    IsWorst (vs ++ [v]) w := by
  have hmem {u : Verdict} (hu : u ∈ vs ++ [v]) : u ∈ vs ∨ u.isViolation = false := by
    rcases List.mem_append.1 hu with hu | hu
    · exact .inl hu
    · exact .inr (List.mem_singleton.1 hu ▸ hv)
  cases w with
  | none => exact fun u hu => (hmem hu).elim (h u) id
  | some s =>
    obtain ⟨⟨u, hu, hfound⟩, hle⟩ := h
    refine ⟨⟨u, List.mem_append_left [v] hu, hfound⟩, fun u hu hviolation => ?_⟩
    refine hle u ((hmem hu).resolve_right ?_) hviolation
    simp [hviolation]

theorem le_of_mem_concat {s : Severity} (hvs : ∀ u ∈ vs, u.isViolation = true → u.severity ≤ s)
    (hv : v.severity ≤ s) : ∀ u ∈ vs ++ [v], u.isViolation = true → u.severity ≤ s := by
  intro u hu hviolation
  rcases List.mem_append.1 hu with hu | hu
  · exact hvs u hu hviolation
  · rw [List.mem_singleton.1 hu]
    exact hv

/-- A further violation counts if it is worse. -/
theorem concat_of_violation (h : IsWorst vs w) (hv : v.isViolation = true) :
    IsWorst (vs ++ [v]) (Summary.worse w v.severity) := by
  have hlast : v ∈ vs ++ [v] := List.mem_append_right vs (List.mem_singleton_self v)
  have hself : v.severity ≤ v.severity := Nat.le_refl _
  cases w with
  | none =>
    refine ⟨⟨v, hlast, hv, rfl⟩, le_of_mem_concat (fun u hu hviolation => ?_) hself⟩
    rw [h u hu] at hviolation
    cases hviolation
  | some s =>
    obtain ⟨⟨u, hu, hviolation, hs⟩, hle⟩ := h
    by_cases hworse : s ≤ v.severity
    · have hmax : Summary.worse (some s) v.severity = some v.severity :=
        congrArg some (if_pos hworse)
      rw [hmax]
      have hvs : ∀ u ∈ vs, u.isViolation = true → u.severity ≤ v.severity :=
        fun u hu hviolation => Nat.le_trans (hle u hu hviolation) hworse
      exact ⟨⟨v, hlast, hv, rfl⟩, le_of_mem_concat hvs hself⟩
    · have hmax : Summary.worse (some s) v.severity = some s := congrArg some (if_neg hworse)
      rw [hmax]
      exact ⟨⟨u, List.mem_append_left [v] hu, hviolation, hs⟩,
        le_of_mem_concat hle (Nat.le_of_not_le hworse)⟩

end IsWorst

theorem SeverityCounts.ext_get {c c' : SeverityCounts} (h : ∀ t, c.get t = c'.get t) : c = c' := by
  have hcritical : c.critical = c'.critical := h .critical
  have hhigh : c.high = c'.high := h .high
  have hmedium : c.medium = c'.medium := h .medium
  have hlow : c.low = c'.low := h .low
  cases c
  cases c'
  simp_all

namespace Summary

variable {vs vs' : List Verdict} {n : Nat} {s s' : Summary}

/-! ### One verdict more -/

theorem passCount_count (s : Summary) (v : Verdict) :
    (s.count v).passCount = s.passCount + if decide (v.outcome = .pass) then 1 else 0 := by
  unfold count
  cases v.outcome <;> simp

theorem notApplicableCount_count (s : Summary) (v : Verdict) :
    (s.count v).notApplicableCount =
      s.notApplicableCount + if decide (v.outcome = .notApplicable) then 1 else 0 := by
  unfold count
  cases v.outcome <;> simp

theorem get_violations_count (s : Summary) (v : Verdict) (t : Severity) :
    (s.count v).violations.get t =
      s.violations.get t + if v.isViolation && v.severity = t then 1 else 0 := by
  unfold count
  cases hv : v.outcome with
  | violation =>
    by_cases ht : v.severity = t
    · subst ht
      simp [Verdict.isViolation, hv]
    · simp [SeverityCounts.get_bump_of_ne _ ht, ht]
  | pass => simp [Verdict.isViolation, hv]
  | notApplicable => simp [Verdict.isViolation, hv]

theorem verdictsTotal_count (s : Summary) (v : Verdict) :
    (s.count v).verdictsTotal = s.verdictsTotal := by
  unfold count
  cases v.outcome <;> rfl

theorem resourcesEvaluated_count (s : Summary) (v : Verdict) :
    (s.count v).resourcesEvaluated = s.resourcesEvaluated := by
  unfold count
  cases v.outcome <;> rfl

theorem isWorst_count (h : IsWorst vs s.worstSeverity) (v : Verdict) :
    IsWorst (vs ++ [v]) (s.count v).worstSeverity := by
  unfold count
  cases hv : v.outcome with
  | violation => exact h.concat_of_violation (by simp [Verdict.isViolation, hv])
  | pass => exact h.concat_of_not_violation (by simp [Verdict.isViolation, hv])
  | notApplicable => exact h.concat_of_not_violation (by simp [Verdict.isViolation, hv])

/-! ### All verdicts -/

/-- A number that no verdict changes is kept. -/
theorem foldl_count_eq_self {f : Summary → UInt32} (h : ∀ s v, f (s.count v) = f s)
    (vs : List Verdict) (s : Summary) : f (vs.foldl count s) = f s := by
  induction vs generalizing s with
  | nil => rfl
  | cons v vs ih => rw [List.foldl_cons, ih, h]

theorem resourcesEvaluated_ofVerdicts (vs : List Verdict) (n : Nat) :
    (ofVerdicts vs n).resourcesEvaluated = saturate n :=
  foldl_count_eq_self resourcesEvaluated_count vs _

theorem isWorst_foldl_count (hs : s.worstSeverity = none) (vs : List Verdict) :
    IsWorst vs (vs.foldl count s).worstSeverity := by
  induction vs using List.reverseRecOn with
  | nil =>
    rw [List.foldl_nil, hs]
    simp [IsWorst]
  | append_singleton vs v ih =>
    rw [List.foldl_concat]
    exact isWorst_count ih v

/-- Whether the numbers of a summary are those of a list of verdicts. -/
structure Tells (s : Summary) (vs : List Verdict) : Prop where
  total : s.verdictsTotal.toNat = vs.length
  violationCount : s.violationCount.toNat = vs.countP (·.outcome = .violation)
  passCount : s.passCount.toNat = vs.countP (·.outcome = .pass)
  notApplicableCount : s.notApplicableCount.toNat = vs.countP (·.outcome = .notApplicable)
  violations : ∀ t, (s.violations.get t).toNat =
    vs.countP fun v => v.outcome = .violation && v.severity = t
  worst : IsWorst vs s.worstSeverity

/-- A word that counts the verdicts of some sort from zero has their number. -/
theorem toNat_foldl_count {f : Summary → UInt32} {p : Verdict → Bool}
    (h : ∀ s v, f (s.count v) = f s + if p v then 1 else 0) (hs : f s = 0)
    (hfit : vs.length < UInt32.size) : (f (vs.foldl count s)).toNat = vs.countP p := by
  rw [foldl_count_eq h, hs, UInt32.zero_add]
  exact UInt32.toNat_ofNat_of_lt' (Nat.lt_of_le_of_lt List.countP_le_length hfit)

theorem tells_ofVerdicts (n : Nat) (hfit : vs.length < UInt32.size) :
    (ofVerdicts vs n).Tells vs where
  total := by
    rw [ofVerdicts, foldl_count_eq_self verdictsTotal_count]
    exact toNat_saturate hfit
  violationCount := toNat_foldl_count violationCount_count rfl hfit
  passCount := toNat_foldl_count passCount_count rfl hfit
  notApplicableCount := toNat_foldl_count notApplicableCount_count rfl hfit
  violations t :=
    toNat_foldl_count (f := (·.violations.get t)) (get_violations_count · · t) (by cases t <;> rfl)
      hfit
  worst := isWorst_foldl_count rfl vs

namespace Tells

theorem perm (h : s.Tells vs) (hp : vs'.Perm vs) : s.Tells vs' where
  total := by rw [h.total, hp.length_eq]
  violationCount := by rw [h.violationCount, hp.countP_eq]
  passCount := by rw [h.passCount, hp.countP_eq]
  notApplicableCount := by rw [h.notApplicableCount, hp.countP_eq]
  violations t := by rw [h.violations, hp.countP_eq]
  worst := h.worst.perm hp

/-- Up to the number of resources, only one summary tells this. -/
theorem unique (h : s.Tells vs) (h' : s'.Tells vs)
    (hresources : s.resourcesEvaluated = s'.resourcesEvaluated) : s = s' := by
  have hword {a b : UInt32} {n : Nat} (ha : a.toNat = n) (hb : b.toNat = n) : a = b :=
    UInt32.toNat_inj.1 (ha.trans hb.symm)
  have hviolations : s.violations = s'.violations :=
    SeverityCounts.ext_get fun t => hword (h.violations t) (h'.violations t)
  have htotal := hword h.total h'.total
  have hviolationCount := hword h.violationCount h'.violationCount
  have hpassCount := hword h.passCount h'.passCount
  have hnotApplicableCount := hword h.notApplicableCount h'.notApplicableCount
  have hworst := h.worst.unique h'.worst
  cases s
  cases s'
  simp_all

end Tells

end Summary

namespace Report

theorem length_violationsAtOrAbove (vs : List Verdict) (n : Nat) (threshold : Severity) :
    ((ofVerdicts vs n).violationsAtOrAbove threshold).length =
      vs.countP (Verdict.reaches threshold) := by
  rw [violationsAtOrAbove, violations, verdicts_ofVerdicts, List.filter_filter,
    ← List.countP_eq_length_filter]
  refine List.countP_congr fun v _ => ?_
  rw [Verdict.reaches, Bool.and_comm]

/-- The numbers of a report add up to each other and are those of its queries. -/
structure AddsUp (r : Report) : Prop where
  outcomes : r.summary.violationCount.toNat + r.summary.passCount.toNat +
    r.summary.notApplicableCount.toNat = r.summary.verdictsTotal.toNat
  severities : (Severity.all.map fun s => (r.summary.violations.get s).toNat).sum =
    r.summary.violationCount.toNat
  reached : ∀ threshold, (r.summary.violations.atOrAbove threshold).toNat =
    (r.violationsAtOrAbove threshold).length
  compliant : r.isCompliant = true ↔ ∀ v ∈ r.verdicts, v.outcome ≠ .violation

theorem addsUp_ofVerdicts {vs : List Verdict} (n : Nat) (hfit : vs.length < UInt32.size) :
    (ofVerdicts vs n).AddsUp := by
  have htells : (ofVerdicts vs n).summary.Tells vs := Summary.tells_ofVerdicts n hfit
  refine ⟨?_, ?_, fun threshold => ?_, ?_⟩
  · have hall : ∀ v : Verdict, v.outcome ∈ Outcome.all := by
      intro v
      cases v.outcome <;> decide
    have hparts := sum_countP_eq_countP Verdict.outcome (fun _ => true) (by decide) hall vs
    simp only [Outcome.all, List.map_cons, List.map_nil, List.sum_cons, List.sum_nil,
      Bool.true_and, List.countP_true] at hparts
    rw [htells.total, htells.violationCount, htells.passCount, htells.notApplicableCount]
    omega
  · simp only [htells.violations, htells.violationCount]
    exact sum_countP_eq_countP Verdict.severity (·.outcome = .violation) (by decide)
      (fun v => Severity.mem_all v.severity) vs
  · have hcount : vs.countP (Verdict.reaches threshold) < UInt32.size :=
      Nat.lt_of_le_of_lt List.countP_le_length hfit
    rw [length_violationsAtOrAbove]
    calc ((ofVerdicts vs n).summary.violations.atOrAbove threshold).toNat
      _ = (UInt32.ofNat (vs.countP (Verdict.reaches threshold))).toNat :=
        congrArg UInt32.toNat (Summary.atOrAbove_violations_ofVerdicts vs n threshold)
      _ = vs.countP (Verdict.reaches threshold) := UInt32.toNat_ofNat_of_lt' hcount
  · rw [isCompliant, decide_eq_true_eq, ← UInt32.toNat_inj, htells.violationCount]
    simp [List.countP_eq_zero]

/-- A report keeps the verdicts as they are given, and its summary tells them. The numbers add up,
and the order of the verdicts makes no difference to them. -/
theorem ofVerdicts_agrees (vs : List Verdict) (n : Nat) (hfit : vs.length < UInt32.size) :
    (ofVerdicts vs n).verdicts = vs ∧ (ofVerdicts vs n).summary.Tells vs ∧
    (ofVerdicts vs n).AddsUp ∧
    ∀ vs', vs'.Perm vs → (ofVerdicts vs' n).summary = (ofVerdicts vs n).summary := by
  have htells : (ofVerdicts vs n).summary.Tells vs := Summary.tells_ofVerdicts n hfit
  refine ⟨rfl, htells, addsUp_ofVerdicts n hfit, fun vs' hp => ?_⟩
  have htells' : (ofVerdicts vs' n).summary.Tells vs' :=
    Summary.tells_ofVerdicts n (hp.length_eq ▸ hfit)
  refine (htells'.perm hp.symm).unique htells ?_
  exact (Summary.resourcesEvaluated_ofVerdicts vs' n).trans
    (Summary.resourcesEvaluated_ofVerdicts vs n).symm

def bucketVerdict (severity : Severity) (outcome : Outcome) : Verdict where
  resourceId := "logs"
  resourceKind := "ObjectStorageBucket"
  ruleKey := "tags"
  severity := severity
  outcome := outcome
  message := "as it was found"
  location := none
  help := none
  fingerprint := none

/-- Two violations, and a pass that would be worse. -/
def mixedVerdicts : List Verdict :=
  [bucketVerdict .critical .pass, bucketVerdict .low .violation, bucketVerdict .high .violation,
    bucketVerdict .medium .notApplicable]

theorem ofVerdicts_agrees_mixed :
    mixedVerdicts.length < UInt32.size ∧
    (ofVerdicts mixedVerdicts 1).summary.Tells mixedVerdicts ∧
    (ofVerdicts mixedVerdicts 1).summary.worstSeverity = some .high ∧
    (ofVerdicts mixedVerdicts 1).AddsUp ∧
    (ofVerdicts mixedVerdicts 1).summary.violations.atOrAbove .medium = 1 ∧
    (ofVerdicts mixedVerdicts.reverse 1).summary = (ofVerdicts mixedVerdicts 1).summary := by
  have hfit : mixedVerdicts.length < UInt32.size := by decide
  obtain ⟨-, htells, haddsUp, hperm⟩ := ofVerdicts_agrees mixedVerdicts 1 hfit
  exact ⟨hfit, htells, by decide, haddsUp, by decide,
    hperm mixedVerdicts.reverse (List.reverse_perm mixedVerdicts)⟩

end Report

end StackAudit
