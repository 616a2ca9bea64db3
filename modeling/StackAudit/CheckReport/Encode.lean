import StackAudit.CheckReport.Basic
import StackAudit.Json.Printer

/-!
# Writing check reports

Reports as JSON, with their fields in a fixed order. An absent optional field is left out.
-/
namespace StackAudit

namespace Json

/-- A field that is left out when it is absent. -/
def optionalField {α : Type} (name : String) (encode : α → Json) :
    Option α → List (String × Json)
  | none => []
  | some a => [(name, encode a)]

def ofUInt32 (n : UInt32) : Json := .num (.ofUInt32 n)

end Json

def Location.toJson (l : Location) : Json :=
  .obj ([("path", .str l.path.text)] ++ Json.optionalField "document" .ofUInt32 l.document)

def Verdict.toJson (v : Verdict) : Json :=
  .obj ([("resource_id", .str v.resourceId),
    ("resource_kind", .str v.resourceKind),
    ("rule_key", .str v.ruleKey),
    ("severity", .str v.severity.name),
    ("outcome", .str v.outcome.name),
    ("message", .str v.message)] ++
    Json.optionalField "location" Location.toJson v.location ++
    Json.optionalField "help" .str v.help ++
    Json.optionalField "fingerprint" .str v.fingerprint)

def SeverityCounts.toJson (c : SeverityCounts) : Json :=
  .obj [("critical", .ofUInt32 c.critical),
    ("high", .ofUInt32 c.high),
    ("medium", .ofUInt32 c.medium),
    ("low", .ofUInt32 c.low)]

def Summary.toJson (s : Summary) : Json :=
  .obj ([("resources_evaluated", .ofUInt32 s.resourcesEvaluated),
    ("verdicts_total", .ofUInt32 s.verdictsTotal),
    ("violation_count", .ofUInt32 s.violationCount),
    ("pass_count", .ofUInt32 s.passCount),
    ("not_applicable_count", .ofUInt32 s.notApplicableCount)] ++
    Json.optionalField "worst_severity" (fun w => .str w.name) s.worstSeverity ++
    [("violations", s.violations.toJson)])

def StackResult.toJson (s : StackResult) : Json :=
  .obj ([("name", .str s.name),
    ("path", .str s.path.text),
    ("status", .str s.status.name),
    ("summary", s.summary.toJson)] ++
    Json.optionalField "error" .str s.error ++
    [("verdicts", .arr (s.verdicts.map Verdict.toJson))])

def Gate.toJson (g : Gate) : Json :=
  .obj ([("status", .str g.status.name),
    ("fail_on", .str g.failOn.name),
    ("reasons", .arr (g.reasons.map .str))] ++
    Json.optionalField "error" .str g.error)

def Tool.toJson (t : Tool) : Json := .obj [("name", .str t.name), ("version", .str t.version)]

def Totals.toJson (d : Totals) : Json :=
  .obj [("profile", .str d.profile),
    ("stacks_evaluated", .ofUInt32 d.stacksEvaluated),
    ("resources_evaluated", .ofUInt32 d.resourcesEvaluated),
    ("rules_in_catalog", .ofUInt32 d.rulesInCatalog),
    ("violations_total", .ofUInt32 d.violationsTotal),
    ("violations_gating", .ofUInt32 d.violationsGating)]

def CheckReport.toJson (r : CheckReport) : Json :=
  .obj [("schema", .str r.schema),
    ("tool", r.tool.toJson),
    ("started_at", .str r.startedAt.text),
    ("finished_at", .str r.finishedAt.text),
    ("gate", r.gate.toJson),
    ("stacks", .arr (r.results.map StackResult.toJson)),
    ("data", r.data.toJson)]

/-- The text of a report, spread over lines. -/
def CheckReport.text (r : CheckReport) : String := r.toJson.prettyText

end StackAudit
