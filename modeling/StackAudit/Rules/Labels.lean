import StackAudit.Rule
import StackAudit.RuleKey

/-!
# Required labels

A workload must carry every required label with a text that is not blank.
-/
namespace StackAudit.Rules

/-- The labels of a workload; absent and `null` count as none. -/
def labelsOf (r : Resource) : Except Fault Json :=
  match (r.property? "metadata.labels").bind Json.nonNull? with
  | none => .ok (.obj [])
  | some v => match v with
    | .obj fields => .ok (.obj fields)
    | _ => .error (.unexpectedShape "metadata.labels" "a mapping")

/-- The rule for a list of required labels. -/
def requiredLabels (required : List String) : Rule where
  key := RuleKey.requiredLabels
  appliesTo := [.workload]
  severity := .low
  judge r _ :=
    if required.isEmpty then .ok (.notApplicable "no required labels configured")
    else do
      let labels ← labelsOf r
      let missing := required.filter fun k => ((labels.get? k).bind Json.nonBlank?).isNone
      if missing.isEmpty then .ok (.pass "all required labels are present")
      else
        let keys := ", ".intercalate missing
        .ok (.violation s!"'{r.displayName}' is missing required labels: {keys}")

end StackAudit.Rules
