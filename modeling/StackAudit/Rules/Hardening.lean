import StackAudit.Rules.Containers

/-!
# Privileges and limits of containers

No container may run with all privileges; each must limit its cpu and memory, run as a user other
than root, and forbid that its processes gain privileges.
-/
namespace StackAudit.Rules

def privilegeIssues (c : ContainerSpec) : List String :=
  if (c.securityField? "privileged").any Json.isTrue then
    [s!"container '{c.name}' runs privileged"]
  else []

def noPrivilegedContainers : Rule where
  key := RuleKey.noPrivilegedContainers
  appliesTo := containerKinds
  severity := .critical
  judge r _ := judgeContainers r privilegeIssues "no container runs privileged"

/-- Whether a limit says nothing: it is `null` or a blank text. -/
def isUnset : Json → Bool
  | .null => true
  | .str s => Text.trim s = ""
  | _ => false

/-- The limits that every container needs. -/
def neededLimits : List String := ["cpu", "memory"]

def limitIssues (c : ContainerSpec) : List String :=
  match (c.value.lookup? "resources.limits").bind Json.nonNull? with
  | none => [s!"container '{c.name}' sets no resource limits"]
  | some limits =>
    let missing := neededLimits.filter fun k => ((limits.get? k).map isUnset).getD true
    let keys := ", ".intercalate missing
    if missing.isEmpty then [] else [s!"container '{c.name}' limits omit {keys}"]

def resourceLimitsRequired : Rule where
  key := RuleKey.resourceLimitsRequired
  appliesTo := containerKinds
  severity := .medium
  judge r _ := judgeContainers r limitIssues "cpu and memory limits are set"

/-- What the pod says about running as root, for the containers that leave it open. -/
def podNonRoot? (r : Resource) : Option Bool :=
  (r.property? "spec.securityContext").bind fun v => (v.get? "runAsNonRoot").bind Json.asBool?

def rootIssues (pod : Option Bool) (c : ContainerSpec) : List String :=
  let own := (c.securityField? "runAsNonRoot").bind Json.asBool?
  let escalation := (c.securityField? "allowPrivilegeEscalation").bind Json.asBool?
  (if (own.or pod).getD false then []
    else [s!"container '{c.name}' does not set runAsNonRoot: true"]) ++
  (if escalation = some false then []
    else [s!"container '{c.name}' does not set allowPrivilegeEscalation: false"])

def nonRootRequired : Rule where
  key := RuleKey.nonRootRequired
  appliesTo := containerKinds
  severity := .high
  judge r _ :=
    judgeContainers r (rootIssues (podNonRoot? r))
      "all containers run as non-root without escalation"

end StackAudit.Rules
