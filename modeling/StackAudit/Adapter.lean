import StackAudit.Declaration
import StackAudit.Text.Quoted

/-!
# Adapters

An adapter turns a declaration of one type into a resource, and says which other resources it refers
to and by which further names it may be referred to. Adapters are found by type token.
-/
namespace StackAudit

/-- What an adapter made of a declaration. -/
structure Adapted where
  /-- The resource, still without relations. -/
  resource : Resource
  /-- References to other resources, as they were written. -/
  references : List String := []
  /-- Further names of the resource. -/
  aliases : List String := []
deriving DecidableEq

/-- A reading of the declarations of one type. -/
abbrev Adapter := Declaration → Except Malformed Adapted

/-- Adapters by type token. -/
structure AdapterRegistry where
  adapters : KeyMap Adapter

namespace AdapterRegistry

instance : EmptyCollection AdapterRegistry := ⟨⟨∅⟩⟩

/-- Puts an adapter in place for a token, over one that is there. -/
def register (r : AdapterRegistry) (token : String) (a : Adapter) : AdapterRegistry :=
  ⟨r.adapters.insert token a⟩

def get? (r : AdapterRegistry) (token : String) : Option Adapter := r.adapters.get? token

/-- The tokens, ascending. -/
def tokens (r : AdapterRegistry) : List String := r.adapters.keys

/-- The tokens as a text for inspection. -/
def summaryText (r : AdapterRegistry) : String :=
  "AdapterRegistry \x7b tokens: " ++ Text.Quoted.encodeList r.tokens ++ " \x7d"

end AdapterRegistry

namespace Declaration

/-- The properties in canonical form; a value that is no object has none. -/
def canonicalProperties (d : Declaration) : KeyMap Json :=
  match d.properties with
  | .obj fields => Json.canonicalFields fields
  | _ => ∅

/-- The resource of a declaration, with the given kind and properties. -/
def toResource (d : Declaration) (kind : ResourceKind) (properties : KeyMap Json) : Resource where
  id := d.id
  kind := kind
  typeToken := d.typeToken
  properties := properties
  relations := ∅
  location := none

/-- The error about a property that does not have the expected shape. -/
def misshaped (d : Declaration) (path expected : String) : Malformed :=
  .invalidShape d.doc path expected

/-- The fields of the properties. -/
def fields (d : Declaration) : Except Malformed (List (String × Json)) :=
  match d.properties with
  | .obj fields => .ok fields
  | _ => .error (d.misshaped "properties" "a mapping")

end Declaration

namespace Adapted

/-- Keeps a declaration of an unknown type as a resource of a kind named by its token. -/
def passthrough (d : Declaration) : Adapted where
  resource := d.toResource ⟨d.typeToken⟩ d.canonicalProperties

end Adapted

namespace Json

/-- The first value under one of the keys that is there and not `null`. -/
def firstOf? (fields : List (String × Json)) (ks : List String) : Option Json :=
  ks.findSome? fun k => (fields.lookup k).bind nonNull?

/-- The items of a sequence, or the value itself as the only item; `null` has none. -/
def oneOrMany : Json → List Json
  | .arr items => items
  | .null => []
  | v => [v]

/-- A mapping of the given fields, in canonical form, where absent ones are left out. -/
def ofFields (l : List (String × Option Json)) : Json :=
  .obj (canonicalFields (l.filterMap fun e => e.2.map fun v => (e.1, v))).entries

end Json

end StackAudit
