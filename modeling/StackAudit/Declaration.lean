import StackAudit.Document.Basic
import StackAudit.Reference

/-!
# Declarations

A document declares a resource when a type and an identity can be read from it. It gives its type by
one token, or by an API version and a kind. Documents that belong to the deployment engine itself
declare nothing.
-/
namespace StackAudit

/-- A document whose type and identity have been read. -/
structure Declaration where
  doc : DocumentRef
  typeToken : String
  id : String
  properties : Json
  /-- The id that the provider gave to an exported resource. -/
  physicalId : Option String
  /-- The outputs of an exported resource. -/
  outputs : Json
deriving DecidableEq

namespace Declaration

/-- The trimmed text of a field that is not blank. -/
def textOf? (fields : List (String × Json)) (k : String) : Option String :=
  (fields.lookup k).bind Json.nonBlank?

/-- The name in the metadata of an object. -/
def metadataName? (fields : List (String × Json)) : Option String :=
  ((fields.lookup "metadata").bind (·.get? "name")).bind Json.nonBlank?

/-- The name by which messages call a document. -/
def displayName? (fields : List (String × Json)) : Option String :=
  ((textOf? fields "name").or (metadataName? fields)).or
    ((textOf? fields "urn").map Reference.urnName)

/-- The first of the fields that is an object, or the empty object. -/
def firstObject (fields : List (String × Json)) (ks : List String) : Json :=
  (ks.findSome? fun k => match fields.lookup k with
    | some (.obj o) => some (Json.obj o)
    | _ => none).getD (.obj [])

/-- The prefix of the types of the deployment engine. -/
def isInternal (token : String) : Bool := Text.startsWith "pulumi:" token

/-- The declaration of an object with a type token. -/
def ofToken (doc : DocumentRef) (fields : List (String × Json)) (token : String) :
    Except Malformed Declaration :=
  let physicalId := textOf? fields "id"
  let name := ((textOf? fields "name").or ((textOf? fields "urn").map Reference.urnName)).or
    physicalId
  match name with
  | none => .error (.missingIdentity doc)
  | some id => .ok
    { doc := doc
      typeToken := token
      id := id
      properties := firstObject fields ["properties", "inputs", "outputs"]
      physicalId := physicalId
      outputs := firstObject fields ["outputs"] }

/-- The declaration of an object with an API version and a kind. All other fields are properties. -/
def ofKind (doc : DocumentRef) (fields : List (String × Json)) :
    Except Malformed Declaration :=
  match textOf? fields "apiVersion", textOf? fields "kind" with
  | some version, some kind =>
    match metadataName? fields with
    | none => .error (.missingIdentity doc)
    | some id => .ok
      { doc := doc
        typeToken := version ++ "/" ++ kind
        id := id
        properties := .obj (fields.filter fun e => e.1 ≠ "apiVersion" ∧ e.1 ≠ "kind")
        physicalId := none
        outputs := .obj [] }
  | _, _ => .error (.missingKind doc)

/-- The declaration of a document, or nothing for a document of the deployment engine. -/
def ofDocument (raw : RawDocument) : Except Malformed (Option Declaration) :=
  match raw.body with
  | .obj fields =>
    let doc := { raw.doc with name := (displayName? fields).or raw.doc.name }
    match textOf? fields "type" with
    | some token =>
      if isInternal token then .ok none else (ofToken doc fields token).map some
    | none => (ofKind doc fields).map some
  | _ => .error (.missingKind raw.doc)

end Declaration

end StackAudit
