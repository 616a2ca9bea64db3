import StackAudit.CheckReport.Encode
import StackAudit.Rules.Builtin
import StackAudit.Text.Lines

/-!
# The list of rules under a policy

All built-in rules as the policy has them, also those that it leaves out: the greatest severity
first, and by key where severities are equal.
-/
namespace StackAudit

/-- A rule as a policy has it. -/
structure RuleEntry where
  key : String
  kinds : List ResourceKind
  severity : Severity
  enabled : Bool
  allow : List String
deriving DecidableEq

namespace RuleEntry

/-- The names of the kinds. -/
def kindNames (e : RuleEntry) : List String := e.kinds.map ResourceKind.name

/-- The order of the list. -/
def precedes (a b : RuleEntry) : Bool :=
  b.severity < a.severity || (a.severity = b.severity && a.key ≤ b.key)

def toJson (e : RuleEntry) : Json :=
  .obj ([("key", .str e.key), ("kinds", .arr (e.kindNames.map .str)),
    ("severity", .str e.severity.name), ("enabled", .bool e.enabled)] ++
    if e.allow.isEmpty then [] else [("allow", .arr (e.allow.map .str))])

/-- A rule on a line, in columns. -/
def line (width : Nat) (e : RuleEntry) : String :=
  let state := if e.enabled then "enabled" else "disabled"
  "  ".intercalate [Text.padEnd width e.key, Text.padEnd 8 e.severity.name, Text.padEnd 8 state,
    ", ".intercalate e.kindNames]

/-- The text of a list. -/
def listText (l : List RuleEntry) : String :=
  let width := (l.map (·.key.length)).foldl max 0
  Text.endLines (l.map (line width))

end RuleEntry

namespace Rules

/-- A rule as the policy has it. -/
def entry (p : Policy) (r : Rule) : RuleEntry :=
  let settings := (p.rules.get? r.key).getD {}
  { key := r.key
    kinds := r.appliesTo
    severity := settings.severity.getD r.severity
    enabled := p.enables r.key
    allow := settings.allow }

/-- The list of rules under a policy. -/
def listing (p : Policy) : List RuleEntry :=
  ((builtin p).map (entry p)).mergeSort RuleEntry.precedes

end Rules

end StackAudit
