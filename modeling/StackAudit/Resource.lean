import StackAudit.Json.Path
import StackAudit.Verdict

/-!
# Resources

A resource of a stack, independent of the provider that it was declared for. Its properties are kept
in canonical form.
-/
namespace StackAudit

/-- The kind of a resource. Kinds are told apart by their names. -/
structure ResourceKind where
  /-- The name of the kind. -/
  name : String
deriving DecidableEq

namespace ResourceKind

/-- A bucket of an object store. -/
def bucket : ResourceKind := ⟨"ObjectStorageBucket"⟩

/-- A block of public access to buckets. -/
def accessBlock : ResourceKind := ⟨"PublicAccessBlock"⟩

/-- A workload that runs containers. -/
def workload : ResourceKind := ⟨"WorkloadDeployment"⟩

/-- A container that stands alone. -/
def container : ResourceKind := ⟨"Container"⟩

end ResourceKind

/-- A resource of a stack. -/
structure Resource where
  /-- The id, unique in a graph. -/
  id : String
  /-- The kind. -/
  kind : ResourceKind
  /-- The type token under which the resource was declared. -/
  typeToken : String
  /-- The properties. -/
  properties : KeyMap Json
  /-- The ids of the resources that this one refers to. -/
  relations : KeySet
  /-- Where the resource was declared. -/
  location : Option Location
deriving DecidableEq

namespace Resource

/-- A resource of which only the id and the kind are known. -/
def ofKind (id : String) (kind : ResourceKind) : Resource where
  id := id
  kind := kind
  typeToken := kind.name
  properties := ∅
  relations := ∅
  location := none

/-- The property that a path leads to. The first segment always names a property. -/
def property? (r : Resource) (path : String) : Option Json :=
  match Text.splitFirst '.' path with
  | some (head, rest) => (r.properties.get? head).bind (·.lookup? rest)
  | none => r.properties.get? path

/-- The properties that a path reaches, with every `*` standing for all children. -/
def select (r : Resource) (path : String) : List Json :=
  let (head, rest) := (Text.splitFirst '.' path).getD (path, "")
  let heads := if head = "*" then r.properties.values else (r.properties.get? head).toList
  heads.flatMap (·.select rest)

/-- The name in the metadata, or else the id. -/
def displayName (r : Resource) : String :=
  ((r.property? "metadata.name").bind Json.nonBlank?).getD r.id

end Resource

end StackAudit
