import StackAudit.Graph
import StackAudit.Text.Pieces

/-!
# Documents

A stack file holds documents. Each is known by its file, its number in the file, and its name where
one could be read.
-/
namespace StackAudit

/-- How a file is written. -/
inductive Format where
  | json
  | yaml
deriving DecidableEq

namespace Format

/-- The format that a file extension stands for, in any case. -/
def ofExtension? (extension : String) : Option Format :=
  let e := Text.asciiLower extension
  if e = "json" then some .json
  else if e = "yaml" ∨ e = "yml" then some .yaml
  else none

def label : Format → String
  | .json => "JSON"
  | .yaml => "YAML"

end Format

/-- By what a document is known. -/
structure DocumentRef where
  source : StackPath
  /-- The number of the document in its file, from zero. -/
  index : UInt32
  name : Option String := none
deriving DecidableEq

/-- The text of a document's identity. -/
def DocumentRef.text (d : DocumentRef) : String :=
  let place := s!"{d.source.text}#{d.index}"
  match d.name with
  | none => place
  | some name => s!"{place} ({name})"

/-- A document as it stands in its file. -/
structure RawDocument where
  doc : DocumentRef
  body : Json
deriving DecidableEq

/-- Why a text is not of a format. -/
structure SyntaxFault where
  format : Format
  /-- What the reader of the format says about the text. -/
  message : String
deriving DecidableEq

/-- Why documents cannot be turned into a graph. -/
inductive Malformed where
  | badText (doc : DocumentRef) (fault : SyntaxFault)
  | missingKind (doc : DocumentRef)
  | unknownKind (doc : DocumentRef) (typeToken : String)
  | missingIdentity (doc : DocumentRef)
  | duplicateId (doc : DocumentRef) (id : String)
  | danglingRelation (doc : DocumentRef) (reference : String)
  | invalidShape (doc : DocumentRef) (path expected : String)
  /-- The resources as a whole are no graph. -/
  | graph (cause : GraphError)
deriving DecidableEq

namespace Malformed

/-- The document at fault, if the error is about a single one. -/
def document? : Malformed → Option DocumentRef
  | .badText d _ => some d
  | .missingKind d => some d
  | .unknownKind d _ => some d
  | .missingIdentity d => some d
  | .duplicateId d _ => some d
  | .danglingRelation d _ => some d
  | .invalidShape d _ _ => some d
  | .graph _ => none

def message : Malformed → String
  | .badText d f => s!"{d.text}: invalid {f.format.label} syntax: {f.message}"
  | .missingKind d =>
    d.text ++ ": document has no recognizable kind (expected `type` or `apiVersion` + `kind`)"
  | .unknownKind d token => s!"{d.text}: no adapter registered for type '{token}'"
  | .missingIdentity d =>
    d.text ++ ": document has no identity (expected `name`, `urn`, or `metadata.name`)"
  | .duplicateId d id => s!"{d.text}: duplicate resource id '{id}'"
  | .danglingRelation d reference =>
    s!"{d.text}: reference '{reference}' does not name a resource in this stack"
  | .invalidShape d path expected => s!"{d.text}: property '{path}' is not {expected}"
  | .graph e => e.message

end Malformed

end StackAudit
