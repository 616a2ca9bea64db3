import StackAudit.Graph

/-!
# Rules

A rule judges the resources of the kinds that it applies to, with the whole graph at hand. It
concludes something, or it fails: by reporting an error or by breaking down.
-/
namespace StackAudit

/-- What a rule concluded about one resource. -/
structure Evaluation where
  /-- The conclusion. -/
  outcome : Outcome
  /-- The reason, for people. -/
  message : String
deriving DecidableEq

namespace Evaluation

/-- The resource obeys the rule. -/
def pass (message : String) : Evaluation := ⟨.pass, message⟩

/-- The resource breaks the rule. -/
def violation (message : String) : Evaluation := ⟨.violation, message⟩

/-- The rule has nothing to say. -/
def notApplicable (message : String) : Evaluation := ⟨.notApplicable, message⟩

end Evaluation

/-- How a rule failed to reach a conclusion. -/
inductive Fault where
  /-- The rule reported an error. -/
  | error (message : String)
  /-- A property is not of the shape that the rule needs. -/
  | unexpectedShape (path expected : String)
  /-- The rule broke down, perhaps with a text. -/
  | breakdown (message : Option String)
deriving DecidableEq

/-- The text of a fault. -/
def Fault.message : Fault → String
  | .error m => m
  | .unexpectedShape path expected => s!"property '{path}' is not {expected}"
  | .breakdown m => m.getD "rule panicked"

/-- A rule. -/
structure Rule where
  /-- The key of the rule. -/
  key : String
  /-- The kinds of resources that the rule applies to. -/
  appliesTo : List ResourceKind
  /-- The severity of its violations. -/
  severity : Severity
  /-- The judgement on a resource of a graph. -/
  judge : Resource → Graph → Except Fault Evaluation
  /-- Whether judging the resource also asks the run to stop. -/
  stops : Resource → Bool := fun _ => false

/-- Whether the rule applies to resources of the kind. -/
def Rule.applies (r : Rule) (kind : ResourceKind) : Bool := r.appliesTo.contains kind

end StackAudit
