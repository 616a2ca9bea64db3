import StackAudit.Adapter

/-!
# Containers that stand alone

Declarations of containers with flat flags. The flags are mapped onto the form that containers have
in workloads; what is already there in that form is kept.
-/
namespace StackAudit.Adapters

open Json (firstOf?)

def containerTokens : List String := ["docker:index/container:Container"]

/-- Whether a user, perhaps with a group behind a colon, is root. -/
def runsAsRoot (user : String) : Bool :=
  let name := Text.trim ((Text.pieces ':' user).headD user)
  name == "" || name == "root" || name == "0"

/-- Whether a security option forbids that processes gain privileges. -/
def forbidsNewPrivileges (option : String) : Bool :=
  ["no-new-privileges", "no-new-privileges:true", "no-new-privileges=true"].contains
    (Text.trim option)

/-- A bare number as a quantity with a unit; other values are kept. -/
def quantity (unit : String) : Json → Json
  | .num n => .str (n.text ++ unit)
  | v => v.canonical

/-- The security context that is declared; absent and `null` count as empty. -/
def declaredSecurity (d : Declaration) : Except Malformed Json :=
  match d.canonicalProperties.get? "securityContext" with
  | none => .ok (.obj [])
  | some .null => .ok (.obj [])
  | some (.obj fields) => .ok (.obj fields)
  | some _ => .error (d.misshaped "securityContext" "a mapping")

/-- Adds the flag for all privileges. -/
def addPrivileged (fields : List (String × Json)) (security : Json) : Json :=
  match firstOf? fields ["privileged"] with
  | none => security
  | some v => security.insert "privileged" v.canonical

/-- Adds what the user says about root, unless the context says it. -/
def addUser (fields : List (String × Json)) (security : Json) : Json :=
  if (security.get? "runAsNonRoot").isSome then security
  else match (firstOf? fields ["user"]).bind Json.asStr? with
    | none => security
    | some user => security.insert "runAsNonRoot" (.bool (!runsAsRoot user))

/-- Adds what the security options say about gaining privileges. -/
def addOptions (d : Declaration) (fields : List (String × Json)) (security : Json) :
    Except Malformed Json :=
  match firstOf? fields ["securityOpts", "security_opts"] with
  | none => .ok security
  | some (.arr options) =>
    if (options.filterMap Json.asStr?).any forbidsNewPrivileges then
      .ok (security.insert "allowPrivilegeEscalation" (.bool false))
    else .ok security
  | some _ => .error (d.misshaped "securityOpts" "a sequence of strings")

/-- The limits that the flat flags set. -/
def flatLimits (fields : List (String × Json)) : List (String × Option Json) :=
  [("memory", (firstOf? fields ["memory"]).map (quantity "Mi")),
   ("cpu", (firstOf? fields ["cpus", "cpuShares", "cpu_shares"]).map (quantity ""))]

/-- Adds the flat limits, unless resources are declared. -/
def addLimits (fields : List (String × Json)) (properties : KeyMap Json) : KeyMap Json :=
  let limits := flatLimits fields
  if properties.contains "resources" || limits.all (·.2.isNone) then properties
  else properties.insert "resources" (.obj [("limits", Json.ofFields limits)])

def container : Adapter := fun d => do
  let fields ← d.fields
  let security ← declaredSecurity d
  let security ← addOptions d fields (addUser fields (addPrivileged fields security))
  let properties := d.canonicalProperties.insert "securityContext" security
  return { resource := d.toResource .container (addLimits fields properties) }

end StackAudit.Adapters
