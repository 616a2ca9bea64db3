import StackAudit.Rule
import StackAudit.RuleKey

/-!
# Rules for buckets

Public access lists, default encryption, versioning and access logs, judged from the properties of
the bucket alone.
-/
namespace StackAudit.Rules

/-- The items of a property that must be a sequence; absent and `null` count as no items. -/
def itemsAt (r : Resource) (path : String) : Except Fault (List Json) :=
  match (r.property? path).bind Json.nonNull? with
  | none => .ok []
  | some v => match v with
    | .arr items => .ok items
    | _ => .error (.unexpectedShape path "a sequence")

/-- The first text under a key of some item that is not blank. -/
def firstText? (items : List Json) (key : String) : Option String :=
  items.findSome? fun v => (v.get? key).bind Json.nonBlank?

/-- The canned access lists that let everyone in. -/
def publicAcls : List String := ["public-read", "public-read-write"]

def noPublicAcl : Rule where
  key := RuleKey.noPublicAcl
  appliesTo := [.bucket]
  severity := .critical
  judge r _ :=
    match (r.property? "acl").bind Json.nonNull? with
    | none => .ok (.pass "no canned ACL set")
    | some v => match v with
      | .str acl =>
        if publicAcls.contains acl then
          .ok (.violation
            s!"bucket '{r.displayName}' grants public access through canned ACL '{acl}'")
        else .ok (.pass s!"canned ACL '{acl}' is not public")
      | _ => .error (.unexpectedShape "acl" "a string")

def encryptionRequired : Rule where
  key := RuleKey.encryptionRequired
  appliesTo := [.bucket]
  severity := .high
  judge r _ := do
    match firstText? (← itemsAt r "serverSideEncryption.rules") "algorithm" with
    | some algorithm => .ok (.pass s!"default server-side encryption uses {algorithm}")
    | none =>
      .ok (.violation s!"bucket '{r.displayName}' has no default server-side encryption rule")

def versioningRequired : Rule where
  key := RuleKey.versioningRequired
  appliesTo := [.bucket]
  severity := .medium
  judge r _ :=
    if (r.property? "versioning.enabled").any Json.isTrue then .ok (.pass "versioning is enabled")
    else .ok (.violation s!"bucket '{r.displayName}' does not enable versioning")

def accessLoggingRecommended : Rule where
  key := RuleKey.accessLoggingRecommended
  appliesTo := [.bucket]
  severity := .medium
  judge r _ := do
    match firstText? (← itemsAt r "logging.targets") "targetBucket" with
    | some target => .ok (.pass s!"access logs are delivered to '{target}'")
    | none => .ok (.violation s!"bucket '{r.displayName}' has no access logging target")

end StackAudit.Rules
