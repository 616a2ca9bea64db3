import StackAudit.Proofs.Check.Run
import StackAudit.Rendering.Basic

/-!
# The numbers in a report

A check writes sums into its report. Each of them is the number of verdicts of some sort, as long as
a machine word can count the verdicts.
-/
namespace StackAudit

/-- The summary is that of the verdicts, and a stack with an error has none. -/
structure StackResult.IsTallied (s : StackResult) : Prop where
  summary : s.SumsUp ⟨s.verdicts, s.summary⟩
  error : s.error ≠ none → s.verdicts = []

/-- Each result is right, and the totals are those of the results. -/
structure CheckReport.IsTallied (r : CheckReport) : Prop where
  results : ∀ s ∈ r.results, s.IsTallied
  total : r.data.violationsTotal = r.total Summary.violationCount
  gating : r.data.violationsGating = Gate.gating r.results r.gate.failOn

variable {d : Disk} {request : CheckRequest} {p : Policy} {c : Catalog}

theorem exists_ofVerdicts_of_evaluateUnder {g : Graph} {flag : Option Bool} {r : Report}
    (h : evaluateUnder g c flag = .ok r) : ∃ vs n, r = .ofVerdicts vs n := by
  unfold evaluateUnder at h
  split at h
  · exact ⟨_, _, (Except.ok.inj h).symm⟩
  · unfold Progress.result at h
    split at h
    · cases h
    · exact ⟨_, _, (Except.ok.inj h).symm⟩

theorem isTallied_of_checkStack {dir : String} {s : StackResult}
    (h : checkStack d request p c dir = .ok s) : s.IsTallied := by
  rcases checkStack_eq_ok_iff.1 h with ⟨e, -, rfl⟩ | ⟨stack, r, -, hr, rfl⟩
  · exact ⟨⟨0, rfl⟩, fun _ => rfl⟩
  · obtain ⟨-, hunder⟩ := evaluateWith_eq_ok_iff.1 hr
    obtain ⟨vs, n, rfl⟩ := exists_ofVerdicts_of_evaluateUnder hunder
    exact ⟨⟨n, rfl⟩, fun herror => absurd rfl herror⟩

theorem isTallied_of_check {startedAt finishedAt : Timestamp} {k : Checked}
    (h : check d request startedAt finishedAt = .ok k) : k.report.IsTallied := by
  obtain ⟨p, c, dirs, results, -, -, -, -, hresults, rfl⟩ := check_eq_ok_iff.1 h
  refine ⟨fun s hs => ?_, rfl, rfl⟩
  obtain ⟨dir, -, hdir⟩ := (mem_iff_of_mapM_eq_ok hresults).1 hs
  exact isTallied_of_checkStack hdir

namespace CheckReport

/-- All verdicts, in order. -/
def verdicts (r : CheckReport) : List Verdict := r.results.flatMap (·.verdicts)

theorem violations_eq_filter (r : CheckReport) :
    r.violations = r.verdicts.filter Verdict.isViolation := by
  rw [violations, verdicts, List.filter_flatMap]

namespace IsTallied

variable {r : CheckReport}

/-- As long as a word can count the verdicts, a sum of numbers that count verdicts of some sort is
the number of all of these. -/
theorem toNat_total (h : r.IsTallied) (hcount : r.verdicts.length < UInt32.size)
    {f : Summary → UInt32} {p : Verdict → Bool}
    (hf : ∀ vs n, f (Summary.ofVerdicts vs n) = UInt32.ofNat (vs.countP p)) :
    (r.total f).toNat = r.verdicts.countP p := by
  let report (s : StackResult) : Report := ⟨s.verdicts, s.summary⟩
  have hreports : List.Forall₂ StackResult.SumsUp r.results (r.results.map report) :=
    List.forall₂_map_right_iff.2 (List.forall₂_same.2 fun s hs => (h.results s hs).summary)
  have hverdicts : allVerdicts (r.results.map report) = r.verdicts := by
    rw [allVerdicts, List.flatMap_map, verdicts]
  rw [CheckReport.total, sum_summary_eq_ofNat hf hreports, hverdicts]
  exact UInt32.toNat_ofNat_of_lt' (Nat.lt_of_le_of_lt List.countP_le_length hcount)

theorem toNat_violationsTotal (h : r.IsTallied) (hcount : r.verdicts.length < UInt32.size) :
    r.data.violationsTotal.toNat = r.verdicts.countP Verdict.isViolation := by
  rw [h.total]
  exact h.toNat_total hcount Summary.violationCount_ofVerdicts

theorem toNat_violationsGating (h : r.IsTallied) (hcount : r.verdicts.length < UInt32.size) :
    r.data.violationsGating.toNat = r.verdicts.countP (Verdict.reaches r.gate.failOn) := by
  rw [h.gating]
  exact h.toNat_total (f := (·.violations.atOrAbove r.gate.failOn)) hcount fun vs n =>
    Summary.atOrAbove_violations_ofVerdicts vs n r.gate.failOn

end IsTallied

end CheckReport

end StackAudit
