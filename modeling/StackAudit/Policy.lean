import StackAudit.KeyMap
import StackAudit.RuleKey
import StackAudit.Severity

/-!
# Policies

A policy says which rules run, under which severity and with which exemptions, which labels a
workload needs, what becomes of unknown documents, and from which severity on a run fails.
-/
namespace StackAudit

/-- What to do with a document whose type is not known. -/
inductive UnknownKinds where
  | reject
  | passthrough
deriving DecidableEq

def UnknownKinds.name : UnknownKinds → String
  | .reject => "reject"
  | .passthrough => "passthrough"

/-- The settings of one rule. -/
structure RulePolicy where
  enabled : Bool := true
  /-- In the place of the rule's own severity. -/
  severity : Option Severity := none
  /-- Glob patterns of the ids of exempted resources. -/
  allow : List String := []
deriving DecidableEq

/-- The settings of a run. -/
structure Policy where
  profile : String
  /-- Violations from this severity on fail the run. -/
  failOn : Severity
  workers : Option Nat
  unknownKinds : UnknownKinds
  requiredLabels : List String
  /-- The settings of single rules; a rule without an entry runs as it is. -/
  rules : KeyMap RulePolicy
deriving DecidableEq

namespace Policy

/-- The labels recommended for every workload. -/
def recommendedLabels : List String :=
  ["app.kubernetes.io/name",
   "app.kubernetes.io/instance",
   "app.kubernetes.io/version",
   "app.kubernetes.io/component",
   "app.kubernetes.io/part-of",
   "app.kubernetes.io/managed-by"]

/-- Every rule runs as it is, and every violation fails the run. -/
def strict : Policy where
  profile := "strict"
  failOn := .low
  workers := none
  unknownKinds := .reject
  requiredLabels := recommendedLabels
  rules := ∅

instance : Inhabited Policy := ⟨strict⟩

/-- For adoption: violations below high do not fail the run, and missing access logs are low. -/
def baseline : Policy :=
  { strict with
    profile := "baseline"
    failOn := .high
    rules := (∅ : KeyMap RulePolicy).insert RuleKey.accessLoggingRecommended
      { severity := some .low } }

/-- The settings that a profile starts from. A name of one's own starts from the strict profile. -/
def preset (profile : String) : Policy :=
  if profile = "baseline" then baseline else { strict with profile := profile }

/-- Whether the policy lets the rule run. -/
def enables (p : Policy) (key : String) : Bool := ((p.rules.get? key).map (·.enabled)).getD true

end Policy

end StackAudit
