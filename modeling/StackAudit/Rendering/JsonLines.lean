import StackAudit.CheckReport.Encode
import StackAudit.Rendering.Basic
import StackAudit.Text.Lines

/-!
# Reports as lines of JSON

One record for each verdict; for a stack with an error, one record with the error alone.
-/
namespace StackAudit

/-- A location in a record, where an absent document is `null`. -/
def Location.recordField (l : Location) : Json :=
  .obj [("path", .str l.path.text), ("document", (l.document.map Json.ofUInt32).getD .null)]

/-- The record of a verdict of a stack. -/
def Verdict.toRecord (stack : String) (v : Verdict) : Json :=
  .obj ([("stack", .str stack),
    ("resource_id", .str v.resourceId),
    ("resource_kind", .str v.resourceKind),
    ("rule_key", .str v.ruleKey),
    ("severity", .str v.severity.name),
    ("outcome", .str v.outcome.name),
    ("message", .str v.message)] ++
    Json.optionalField "location" Location.recordField v.location ++
    Json.optionalField "help" .str v.help ++
    Json.optionalField "fingerprint" .str v.fingerprint)

/-- The records of a stack. -/
def StackResult.records (s : StackResult) : List Json :=
  match s.error with
  | some e => [.obj [("stack", .str s.name), ("error", .str e)]]
  | none => s.verdicts.map (Verdict.toRecord s.name)

/-- The report as lines of JSON. -/
def CheckReport.jsonLines (r : CheckReport) : String :=
  Text.endLines ((r.results.flatMap StackResult.records).map Json.compactText)

end StackAudit
