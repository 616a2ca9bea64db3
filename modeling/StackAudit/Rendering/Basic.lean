import StackAudit.CheckReport.Basic

/-!
# Reports for people and tools

What the renderings of a report share. They show paths as they stand in the report that they are
given; `fromRoot` puts the paths of each stack below the stack's own path.
-/
namespace StackAudit

/-- The location below a path. -/
def Location.below (root : StackPath) (l : Location) : Location :=
  { l with path := root.join l.path }

/-- The verdicts of a stack with their locations below its path. -/
def StackResult.fromRoot (s : StackResult) : StackResult :=
  { s with verdicts := s.verdicts.map fun v =>
      { v with location := v.location.map (Location.below s.path) } }

namespace CheckReport

/-- The report with all locations below the paths of their stacks. -/
def fromRoot (r : CheckReport) : CheckReport := { r with results := r.results.map .fromRoot }

/-- The sum of a number over all stacks. -/
def total (r : CheckReport) (n : Summary → UInt32) : UInt32 :=
  SeverityCounts.sum (r.results.map (n ·.summary))

/-- The greatest severity of a violation. -/
def worstSeverity (r : CheckReport) : Option Severity :=
  (r.results.filterMap (·.summary.worstSeverity)).foldl (fun w s => Summary.worse w s) none

/-- All violations, in order. -/
def violations (r : CheckReport) : List Verdict :=
  r.results.flatMap fun s => s.verdicts.filter Verdict.isViolation

end CheckReport

end StackAudit
