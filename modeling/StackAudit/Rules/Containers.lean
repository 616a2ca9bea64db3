import StackAudit.Rule
import StackAudit.RuleKey

/-!
# Containers of a resource

The rules about containers look at every container of a workload, those that run first included, or
at a container that stands alone. They collect the issues of the single containers; without a
container they have nothing to say.
-/
namespace StackAudit.Rules

/-- A container under the name by which messages call it. -/
structure ContainerSpec where
  name : String
  value : Json

namespace ContainerSpec

/-- A field of the security context. -/
def securityField? (c : ContainerSpec) (field : String) : Option Json :=
  (c.value.lookup? "securityContext").bind (·.get? field)

/-- The container that an item of a list declares. -/
def ofItem (path : String) (index : Nat) (item : Json) : Except Fault ContainerSpec :=
  match item with
  | .obj fields =>
    .ok ⟨((Json.obj fields).get? "name" |>.bind Json.nonBlank?).getD "<unnamed>", .obj fields⟩
  | _ => .error (.unexpectedShape s!"{path}.{index}" "a mapping")

/-- The containers of the list at a path; absent and `null` count as none. -/
def listAt (r : Resource) (path : String) : Except Fault (List ContainerSpec) :=
  match (r.property? path).bind Json.nonNull? with
  | none => .ok []
  | some v => match v with
    | .arr items => items.zipIdx.mapM fun (item, i) => ofItem path i item
    | _ => .error (.unexpectedShape path "a sequence")

/-- All containers of a resource. -/
def all (r : Resource) : Except Fault (List ContainerSpec) :=
  if r.kind = .container then
    .ok [⟨((r.properties.get? "name").bind Json.nonBlank?).getD r.id, .ofKeyMap r.properties⟩]
  else do
    let main ← listAt r "spec.containers"
    let first ← listAt r "spec.initContainers"
    return main ++ first

end ContainerSpec

/-- Judges a resource by the issues of its containers. -/
def judgeContainers (r : Resource) (issues : ContainerSpec → List String) (allWell : String) :
    Except Fault Evaluation := do
  let specs ← ContainerSpec.all r
  if specs.isEmpty then return .notApplicable s!"'{r.displayName}' declares no containers"
  let found := specs.flatMap issues
  return if found.isEmpty then .pass allWell else .violation ("; ".intercalate found)

/-- The kinds that have containers. -/
def containerKinds : List ResourceKind := [.workload, .container]

end StackAudit.Rules
