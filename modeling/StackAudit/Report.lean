import StackAudit.Verdict

/-!
# Reports

A report holds the verdicts of one run in their order and a summary of them. The summary counts
verdicts by outcome and violations by severity.
-/
namespace StackAudit

/-- The numbers of a list of verdicts. -/
structure Summary where
  /-- How many resources were judged. -/
  resourcesEvaluated : UInt32 := 0
  /-- How many verdicts there are. -/
  verdictsTotal : UInt32 := 0
  /-- How many of them are violations. -/
  violationCount : UInt32 := 0
  /-- How many of them are passes. -/
  passCount : UInt32 := 0
  /-- How many of them do not apply. -/
  notApplicableCount : UInt32 := 0
  /-- The greatest severity of a violation. -/
  worstSeverity : Option Severity := none
  /-- The violations by severity. -/
  violations : SeverityCounts := {}
deriving DecidableEq, Inhabited

namespace Summary

/-- The greater of a severity and one that may be absent. -/
def worse (w : Option Severity) (s : Severity) : Option Severity :=
  match w with
  | none => some s
  | some t => some (max t s)

/-- Counts a verdict by its outcome, and by its severity if it is a violation. -/
def count (s : Summary) (v : Verdict) : Summary :=
  match v.outcome with
  | .pass => { s with passCount := s.passCount + 1 }
  | .notApplicable => { s with notApplicableCount := s.notApplicableCount + 1 }
  | .violation =>
    { s with
      violationCount := s.violationCount + 1
      worstSeverity := worse s.worstSeverity v.severity
      violations := s.violations.bump v.severity }

/-- A length as a 32-bit count, the greatest one if it does not fit. -/
def saturate (n : Nat) : UInt32 := UInt32.ofNat (min n 4294967295)

/-- The numbers of a list of verdicts about a given number of resources. -/
def ofVerdicts (verdicts : List Verdict) (resources : Nat) : Summary :=
  let blank : Summary :=
    { resourcesEvaluated := saturate resources
      verdictsTotal := saturate verdicts.length }
  verdicts.foldl count blank

end Summary

/-- The verdicts of one run and their summary. -/
structure Report where
  /-- The verdicts, in order. -/
  verdicts : List Verdict
  /-- Their summary. -/
  summary : Summary
deriving DecidableEq

namespace Report

/-- The report of a list of verdicts about a given number of resources. -/
def ofVerdicts (verdicts : List Verdict) (resources : Nat) : Report :=
  ⟨verdicts, Summary.ofVerdicts verdicts resources⟩

@[simp] theorem verdicts_ofVerdicts (vs : List Verdict) (n : Nat) :
    (ofVerdicts vs n).verdicts = vs := rfl

/-- Whether there is no violation at all. -/
def isCompliant (r : Report) : Bool := r.summary.violationCount = 0

/-- The verdicts that are violations. -/
def violations (r : Report) : List Verdict := r.verdicts.filter Verdict.isViolation

/-- The violations of one resource. -/
def violationsFor (r : Report) (id : String) : List Verdict :=
  r.violations.filter (·.resourceId = id)

/-- The violations of one severity. -/
def violationsOf (r : Report) (s : Severity) : List Verdict :=
  r.violations.filter (·.severity = s)

/-- The violations of at least the given severity. -/
def violationsAtOrAbove (r : Report) (threshold : Severity) : List Verdict :=
  r.violations.filter (threshold ≤ ·.severity)

end Report

end StackAudit
