import StackAudit.Document.Basic
import StackAudit.Report

/-!
# Documents of a value

A value of a stack file is one document, a sequence of such values, or a container: an export with
the resources of a deployment, or a sequence or mapping of resources. A container is recognized by
its keys, and an object with a type or a kind of its own is never one.
-/
namespace StackAudit.Document

/-- Whether a value is a sequence. -/
def isSequence : Json → Bool
  | .arr _ => true
  | _ => false

/-- Whether a value is a sequence or a mapping. -/
def isCollection : Json → Bool
  | .arr _ => true
  | .obj _ => true
  | _ => false

/-- Whether an object holds resources and is none itself. -/
def isContainer (fields : List (String × Json)) : Bool :=
  let own := (fields.lookup "type").isSome || (fields.lookup "kind").isSome
  let exported := ((fields.lookup "deployment").bind (·.get? "resources")).any isSequence
  let listed := (fields.lookup "resources").any isCollection
  !own && (exported || listed)

/-- The resources of a container. A deployment that is an object goes before resources beside it,
whatever it holds. -/
def resourcesOf? (fields : List (String × Json)) : Option Json :=
  match fields.lookup "deployment" with
  | some (.obj deployment) => deployment.lookup "resources"
  | _ => fields.lookup "resources"

/-- An entry of a mapping of resources; an object without a name is named by its key. -/
def withName (name : String) : Json → Json
  | .obj fields =>
    if (fields.lookup "name").isSome then .obj fields else .obj (fields ++ [("name", .str name)])
  | v => v

/-- The documents of a collection of resources. -/
def entriesOf : Option Json → List Json
  | some (.arr items) => items
  | some (.obj named) => named.map fun e => withName e.1 e.2
  | _ => []

mutual

/-- The documents of a value, in order. -/
def flatten : Json → List Json
  | .null => []
  | .arr items => flattenAll items
  | .obj fields => if isContainer fields then entriesOf (resourcesOf? fields) else [.obj fields]
  | v => [v]

/-- The documents of several values, in order. -/
def flattenAll : List Json → List Json
  | [] => []
  | v :: r => flatten v ++ flattenAll r

end

@[simp] theorem flattenAll_eq_flatMap (l : List Json) : flattenAll l = l.flatMap flatten := by
  induction l with
  | nil => simp [flattenAll]
  | cons v r ih => simp [flattenAll, ih]

/-- Numbers documents from zero. -/
def number (source : StackPath) (bodies : List Json) : List RawDocument :=
  bodies.zipIdx.map fun (body, i) => ⟨⟨source, Summary.saturate i, none⟩, body⟩

end StackAudit.Document
