import StackAudit.CheckReport.Basic

/-!
# The gate

A run fails when some violation reaches the threshold, and it is an error when some stack could not
be read, whatever the others show.
-/
namespace StackAudit

namespace Gate

def malformedStack : String := "malformed_stack"

def violationsAtThreshold : String := "violations_at_or_above_threshold"

def runtimeError : String := "tool_runtime_error"

/-- The number of violations from a severity on. -/
def gating (results : List StackResult) (failOn : Severity) : UInt32 :=
  SeverityCounts.sum (results.map (·.summary.violations.atOrAbove failOn))

/-- The decision on the results of all stacks. -/
def ofResults (results : List StackResult) (failOn : Severity) : Gate :=
  let malformed := results.any (·.status = .error)
  let reached := 0 < gating results failOn
  { status := if malformed then .error else if reached then .fail else .pass
    failOn := failOn
    reasons := (if malformed then [malformedStack] else []) ++
      (if reached then [violationsAtThreshold] else [])
    error := none }

end Gate

namespace Totals

/-- The numbers over the results of all stacks. -/
def ofResults (results : List StackResult) (profile : String) (failOn : Severity) (rules : Nat) :
    Totals where
  profile := profile
  stacksEvaluated := Summary.saturate results.length
  resourcesEvaluated := SeverityCounts.sum (results.map (·.summary.resourcesEvaluated))
  rulesInCatalog := Summary.saturate rules
  violationsTotal := SeverityCounts.sum (results.map (·.summary.violationCount))
  violationsGating := Gate.gating results failOn

end Totals

namespace CheckReport

/-- The report of a run that broke off. -/
def ofFailure (message : String) (now : Timestamp) : CheckReport where
  schema := schemaName
  tool := .this
  startedAt := now
  finishedAt := now
  gate := ⟨.error, .low, [Gate.runtimeError], some message⟩
  results := []
  data := ⟨"unknown", 0, 0, 0, 0, 0⟩

end CheckReport

end StackAudit
