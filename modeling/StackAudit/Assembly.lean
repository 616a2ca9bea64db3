import StackAudit.Adapter
import StackAudit.Policy

/-!
# From documents to a graph

First every document is declared and adapted, in order; then references are resolved against the ids
and aliases of all of them. An alias counts only if one resource alone has it and no resource has it
as its id. So an error in a single document is always found before a reference that leads nowhere.
-/
namespace StackAudit.Assembly

/-- Adapts a declaration, by its registered adapter or as a resource of unknown kind. -/
def adapt (registry : AdapterRegistry) (unknown : UnknownKinds) (d : Declaration) :
    Except Malformed Adapted :=
  match registry.get? d.typeToken with
  | some adapter => adapter d
  | none => match unknown with
    | .passthrough => .ok (Adapted.passthrough d)
    | .reject => .error (.unknownKind d.doc d.typeToken)

/-- What is known after the documents so far. -/
structure Found where
  /-- The declared ids. -/
  ids : KeySet := ∅
  /-- The documents with what was made of them, in order. -/
  adapted : List (DocumentRef × Adapted) := []

/-- Declares and adapts one more document. -/
def Found.add (registry : AdapterRegistry) (unknown : UnknownKinds) (f : Found)
    (raw : RawDocument) : Except Malformed Found := do
  match ← Declaration.ofDocument raw with
  | none => return f
  | some d =>
    if f.ids.contains d.id then .error (.duplicateId d.doc d.id)
    else return ⟨f.ids.add d.id, f.adapted ++ [(d.doc, ← adapt registry unknown d)]⟩

/-- Notes that a resource has an alias; one that a second resource has is no name at all. -/
def noteAlias (ids : KeySet) (id : String) (owners : KeyMap (Option String)) (name : String) :
    KeyMap (Option String) :=
  if ids.contains name then owners
  else if owners.contains name then owners.insert name none
  else owners.insert name (some id)

/-- The owners of all aliases, absent where there is more than one. -/
def Found.owners (f : Found) : KeyMap (Option String) :=
  f.adapted.foldl (fun m e => e.2.aliases.foldl (noteAlias f.ids e.2.resource.id) m) ∅

/-- The id of the resource that a reference names. -/
def target? (ids : KeySet) (owners : KeyMap (Option String)) (reference : String) :
    Option String :=
  let k := Reference.key reference
  if ids.contains k then some k else (owners.get? k).bind id

/-- Adds the relation that a reference stands for; a reference to the resource itself adds none. -/
def relate (ids : KeySet) (owners : KeyMap (Option String)) (doc : DocumentRef) (r : Resource)
    (reference : String) : Except Malformed Resource :=
  match target? ids owners reference with
  | none => .error (.danglingRelation doc reference)
  | some id => .ok (if id = r.id then r else { r with relations := r.relations.add id })

/-- The resource of a document with its relations and its place. -/
def Found.resource (f : Found) (owners : KeyMap (Option String)) (e : DocumentRef × Adapted) :
    Except Malformed Resource := do
  let r ← e.2.references.foldlM (relate f.ids owners e.1) e.2.resource
  return { r with location := some ⟨e.1.source, some e.1.index⟩ }

end Assembly

/-- The graph of a list of documents. -/
def Graph.ofDocuments (docs : List RawDocument) (registry : AdapterRegistry)
    (unknown : UnknownKinds) : Except Malformed Graph := do
  let found ← docs.foldlM (Assembly.Found.add registry unknown) {}
  let resources ← found.adapted.mapM (found.resource found.owners)
  (Graph.ofResources resources).mapError .graph

end StackAudit
