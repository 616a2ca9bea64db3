import StackAudit.Report
import StackAudit.Timestamp

/-!
# Check reports

What a check over a directory of stacks found: the result of each stack, the gate that the results
pass or fail, and totals.
-/
namespace StackAudit

/-- How a stack fared. -/
inductive StackStatus where
  | compliant
  | nonCompliant
  /-- The stack could not be read. -/
  | error
deriving DecidableEq, Inhabited

namespace StackStatus

def all : List StackStatus := [.compliant, .nonCompliant, .error]

def name : StackStatus → String
  | .compliant => "compliant"
  | .nonCompliant => "non_compliant"
  | .error => "error"

end StackStatus

/-- The result of one stack. -/
structure StackResult where
  name : String
  path : StackPath
  status : StackStatus
  summary : Summary
  /-- Why the stack could not be read. -/
  error : Option String
  verdicts : List Verdict
deriving DecidableEq

/-- How the gate decided. -/
inductive GateStatus where
  | pass
  | fail
  /-- Something could not be judged. -/
  | error
deriving DecidableEq, Inhabited

namespace GateStatus

def all : List GateStatus := [.pass, .fail, .error]

def name : GateStatus → String
  | .pass => "pass"
  | .fail => "fail"
  | .error => "error"

/-- The exit code of a run with this gate. -/
def exitCode : GateStatus → Nat
  | .pass => 0
  | .fail => 2
  | .error => 1

end GateStatus

/-- The decision on a whole run. -/
structure Gate where
  status : GateStatus
  /-- The severity from which on violations fail the gate. -/
  failOn : Severity
  reasons : List String
  /-- Why the run broke off. -/
  error : Option String
deriving DecidableEq

/-- The program that wrote a report. -/
structure Tool where
  name : String
  version : String
deriving DecidableEq

/-- The program at hand. -/
def Tool.this : Tool := ⟨"stackguard", "0.1.0"⟩

/-- Numbers over all stacks. -/
structure Totals where
  profile : String
  stacksEvaluated : UInt32
  resourcesEvaluated : UInt32
  rulesInCatalog : UInt32
  violationsTotal : UInt32
  /-- The violations that fail the gate. -/
  violationsGating : UInt32
deriving DecidableEq

/-- A whole report. -/
structure CheckReport where
  /-- The name of the format. -/
  schema : String
  tool : Tool
  startedAt : Timestamp
  finishedAt : Timestamp
  gate : Gate
  results : List StackResult
  data : Totals
deriving DecidableEq

/-- The name of the one format of reports. -/
def CheckReport.schemaName : String := "stackguard.report.v1"

end StackAudit
