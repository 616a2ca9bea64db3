import StackAudit.Document.Flatten
import StackAudit.Json.Parser
import StackAudit.Yaml.Value

/-!
# Reading stack files

The text of a file is read as values, and each value as documents. The documents of a file are
numbered from zero without gaps.
-/
namespace StackAudit.Document

/-- The values that a text holds: one of JSON, any number of YAML. -/
def values? (format : Format) (text : String) : Option (List Json) :=
  match format with
  | .json => (Json.read? text).map fun v => [v]
  | .yaml => Yaml.read? text

/-- What a reader says about a text that is not of its format. The place and the cause that readers
tell are theirs, and this stands for both. -/
def readerMessage : String := "<detail>"

/-- The documents of a text. -/
def decode (source : StackPath) (text : String) (format : Format) :
    Except Malformed (List RawDocument) :=
  match values? format text with
  | some vs => .ok (number source (flattenAll vs))
  | none => .error (.badText ⟨source, 0, none⟩ ⟨format, readerMessage⟩)

end StackAudit.Document
