import StackAudit.Catalog
import StackAudit.Glob.Match
import StackAudit.Policy
import StackAudit.Rules.AccessBlock
import StackAudit.Rules.Bucket
import StackAudit.Rules.Hardening
import StackAudit.Rules.Image
import StackAudit.Rules.Labels

/-!
# The built-in rules under a policy

A policy leaves rules out, changes their severities and exempts resources by their ids. The
exemption is tried first, so an exempted resource is never judged.
-/
namespace StackAudit.Rules

/-- The built-in rules, as they are without settings of their own. -/
def builtin (p : Policy) : List Rule :=
  [noPublicAcl, encryptionRequired, versioningRequired, accessLoggingRecommended,
   publicAccessBlockRequired, requiredLabels p.requiredLabels, noMutableImageTag,
   noPrivilegedContainers, resourceLimitsRequired, nonRootRequired]

/-- The patterns of an allow list, or the first text that is none. -/
def readAllowList (key : String) (allow : List String) :
    Except CatalogError (List (List Glob.Part)) :=
  allow.mapM fun pattern =>
    match Glob.parse pattern with
    | .ok parts => .ok parts
    | .error _ => .error (.invalidAllowPattern key pattern)

/-- Whether one of the patterns matches the id. -/
def isExempt (patterns : List (List Glob.Part)) (id : String) : Bool :=
  patterns.any (Glob.isMatch · id)

/-- The message about an exempted resource. -/
def exemptionMessage (id key : String) : String :=
  s!"resource '{id}' is exempted from {key} by policy allowlist"

/-- A rule under another severity that does not judge exempted resources. -/
def configure (r : Rule) (severity : Severity) (patterns : List (List Glob.Part)) : Rule :=
  { r with
    severity := severity
    judge := fun s g =>
      if isExempt patterns s.id then .ok (.notApplicable (exemptionMessage s.id r.key))
      else r.judge s g
    stops := fun s => !isExempt patterns s.id && r.stops s }

/-- A rule under its settings, if it has any that change it. -/
def underPolicy (p : Policy) (r : Rule) : Except CatalogError Rule :=
  match p.rules.get? r.key with
  | none => .ok r
  | some s =>
    if s.severity.isNone && s.allow.isEmpty then .ok r
    else do return configure r (s.severity.getD r.severity) (← readAllowList r.key s.allow)

/-- The catalog of the built-in rules under a policy. -/
def catalog (p : Policy) : Except CatalogError Catalog :=
  ((builtin p).filter fun r => p.enables r.key).foldlM
    (fun c r => do c.register (← underPolicy p r)) ∅

end StackAudit.Rules
