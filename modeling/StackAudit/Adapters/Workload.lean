import StackAudit.Adapter

/-!
# Workloads

Declarations of workloads. Each type keeps the specification of its pods at a place of its own; the
resource holds the metadata and that specification.
-/
namespace StackAudit.Adapters

/-- Where the types of workloads keep the specification of their pods. -/
def workloadTokens : List (String × String) :=
  [("kubernetes:apps/v1:Deployment", "spec.template.spec"),
   ("kubernetes:apps/v1:StatefulSet", "spec.template.spec"),
   ("kubernetes:apps/v1:DaemonSet", "spec.template.spec"),
   ("kubernetes:apps/v1:ReplicaSet", "spec.template.spec"),
   ("kubernetes:batch/v1:Job", "spec.template.spec"),
   ("kubernetes:batch/v1:CronJob", "spec.jobTemplate.spec.template.spec"),
   ("kubernetes:core/v1:Pod", "spec"),
   ("apps/v1/Deployment", "spec.template.spec"),
   ("apps/v1/StatefulSet", "spec.template.spec"),
   ("apps/v1/DaemonSet", "spec.template.spec"),
   ("apps/v1/ReplicaSet", "spec.template.spec"),
   ("batch/v1/Job", "spec.template.spec"),
   ("batch/v1/CronJob", "spec.jobTemplate.spec.template.spec"),
   ("v1/Pod", "spec")]

/-- Where a type keeps the specification of its pods. -/
def podPath (token : String) : String :=
  (workloadTokens.lookup token).getD "spec.template.spec"

/-- Follows the keys of a path through mappings. -/
def descend (v : Json) (path : String) : Option Json := (Text.pieces '.' path).foldlM Json.get? v

/-- The specification of the pods; absent and `null` count as empty. -/
def podSpec (d : Declaration) : Except Malformed Json :=
  let path := podPath d.typeToken
  match descend d.properties path with
  | none => .ok (.obj [])
  | some .null => .ok (.obj [])
  | some (.obj fields) => .ok (.obj fields)
  | some _ => .error (d.misshaped path "a mapping")

def workload : Adapter := fun d => do
  let fields ← d.fields
  let metadata := (fields.lookup "metadata").getD .null
  match metadata with
  | .null | .obj _ =>
    let spec ← podSpec d
    let properties := Json.canonicalFields [("metadata", metadata), ("spec", spec)]
    return { resource := d.toResource .workload properties }
  | _ => .error (d.misshaped "metadata" "a mapping")

end StackAudit.Adapters
