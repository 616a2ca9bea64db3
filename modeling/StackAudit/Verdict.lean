import StackAudit.Severity
import StackAudit.StackPath.Basic

/-!
# Verdicts

What one rule concluded about one resource.
-/
namespace StackAudit

/-- The conclusion of a rule. -/
inductive Outcome where
  /-- The resource obeys the rule. -/
  | pass
  /-- The resource breaks the rule. -/
  | violation
  /-- The rule has nothing to say about the resource. -/
  | notApplicable
deriving DecidableEq, Inhabited

/-- The name of an outcome. -/
def Outcome.name : Outcome → String
  | .pass => "pass"
  | .violation => "violation"
  | .notApplicable => "not_applicable"

/-- All outcomes. -/
def Outcome.all : List Outcome := [.pass, .violation, .notApplicable]

/-- Where a resource was declared. -/
structure Location where
  /-- The file. -/
  path : StackPath
  /-- The number of the document in the file, from zero. -/
  document : Option UInt32
deriving DecidableEq

/-- What one rule concluded about one resource. -/
structure Verdict where
  /-- The id of the resource. -/
  resourceId : String
  /-- The name of the kind of the resource. -/
  resourceKind : String
  /-- The key of the rule. -/
  ruleKey : String
  /-- The severity under which the rule ran. -/
  severity : Severity
  /-- The conclusion. -/
  outcome : Outcome
  /-- The reason, for people. -/
  message : String
  /-- Where the resource was declared. -/
  location : Option Location
  /-- How to mend a violation. -/
  help : Option String
  /-- The identity of a violation. -/
  fingerprint : Option String
deriving DecidableEq

/-- Whether the verdict is a violation. -/
def Verdict.isViolation (v : Verdict) : Bool := v.outcome = .violation

end StackAudit
