import StackAudit.CheckReport.Basic
import StackAudit.Json.Parser
import StackAudit.Json.Record
import StackAudit.Text.Quoted

/-!
# Reading check reports

A text is a report when it is JSON, names the format, and has the fields of a report. Unknown fields
are passed over.
-/
namespace StackAudit

/-- Why a text is no report. -/
inductive ReportError where
  | notJson
  | unknownSchema (schema : String)
  | notAReport
deriving DecidableEq

def ReportError.message : ReportError → String
  | .notJson => "parse report json"
  | .unknownSchema s =>
    let quoted := Text.Quoted.encode s
    s!"unknown report schema: {quoted} (expected {CheckReport.schemaName})"
  | .notAReport => "parse stackguard report"

open Json (Record readText? readItems? readUInt32? readName?)

/-- The member of a list with a given name. -/
def memberNamed? {α : Type} (all : List α) (name : α → String) (s : String) : Option α :=
  all.find? fun a => name a = s

def Severity.ofJson? : Json → Option Severity := readName? Severity.ofName?

def StackPath.ofJson? (v : Json) : Option StackPath := v.asStr?.map .mk

def Timestamp.ofJson? (v : Json) : Option Timestamp := v.asStr?.bind Timestamp.read?

def Location.ofJson? (v : Json) : Option Location := do
  let r ← Record.ofJson? ["path", "document"] false v
  return { path := ← r.required "path" StackPath.ofJson?
           document := ← r.optional "document" readUInt32? }

def Verdict.ofJson? (v : Json) : Option Verdict := do
  let r ← Record.ofJson? ["resource_id", "resource_kind", "rule_key", "severity", "outcome",
    "message", "location", "help", "fingerprint"] false v
  return { resourceId := ← r.required "resource_id" readText?
           resourceKind := ← r.required "resource_kind" readText?
           ruleKey := ← r.required "rule_key" readText?
           severity := ← r.required "severity" Severity.ofJson?
           outcome := ← r.required "outcome" (readName? (memberNamed? Outcome.all Outcome.name))
           message := ← r.required "message" readText?
           location := ← r.optional "location" Location.ofJson?
           help := ← r.optional "help" readText?
           fingerprint := ← r.optional "fingerprint" readText? }

def SeverityCounts.ofJson? (v : Json) : Option SeverityCounts := do
  let r ← Record.ofJson? ["critical", "high", "medium", "low"] false v
  return { critical := ← r.required "critical" readUInt32?
           high := ← r.required "high" readUInt32?
           medium := ← r.required "medium" readUInt32?
           low := ← r.required "low" readUInt32? }

def Summary.ofJson? (v : Json) : Option Summary := do
  let r ← Record.ofJson? ["resources_evaluated", "verdicts_total", "violation_count",
    "pass_count", "not_applicable_count", "worst_severity", "violations"] false v
  return { resourcesEvaluated := ← r.required "resources_evaluated" readUInt32?
           verdictsTotal := ← r.required "verdicts_total" readUInt32?
           violationCount := ← r.required "violation_count" readUInt32?
           passCount := ← r.required "pass_count" readUInt32?
           notApplicableCount := ← r.required "not_applicable_count" readUInt32?
           worstSeverity := ← r.optional "worst_severity" Severity.ofJson?
           violations := ← r.required "violations" SeverityCounts.ofJson? }

def StackResult.ofJson? (v : Json) : Option StackResult := do
  let r ← Record.ofJson? ["name", "path", "status", "summary", "error", "verdicts"] false v
  return { name := ← r.required "name" readText?
           path := ← r.required "path" StackPath.ofJson?
           status := ← r.required "status"
             (readName? (memberNamed? StackStatus.all StackStatus.name))
           summary := ← r.required "summary" Summary.ofJson?
           error := ← r.optional "error" readText?
           verdicts := ← r.required "verdicts" (readItems? Verdict.ofJson?) }

def Gate.ofJson? (v : Json) : Option Gate := do
  let r ← Record.ofJson? ["status", "fail_on", "reasons", "error"] false v
  return { status := ← r.required "status"
             (readName? (memberNamed? GateStatus.all GateStatus.name))
           failOn := ← r.required "fail_on" Severity.ofJson?
           reasons := ← r.defaulted "reasons" [] (readItems? readText?)
           error := ← r.defaulted "error" none (Record.orNull readText?) }

def Tool.ofJson? (v : Json) : Option Tool := do
  let r ← Record.ofJson? ["name", "version"] false v
  return { name := ← r.required "name" readText?, version := ← r.required "version" readText? }

def Totals.ofJson? (v : Json) : Option Totals := do
  let r ← Record.ofJson? ["profile", "stacks_evaluated", "resources_evaluated",
    "rules_in_catalog", "violations_total", "violations_gating"] false v
  return { profile := ← r.required "profile" readText?
           stacksEvaluated := ← r.required "stacks_evaluated" readUInt32?
           resourcesEvaluated := ← r.required "resources_evaluated" readUInt32?
           rulesInCatalog := ← r.required "rules_in_catalog" readUInt32?
           violationsTotal := ← r.required "violations_total" readUInt32?
           violationsGating := ← r.required "violations_gating" readUInt32? }

def CheckReport.ofJson? (v : Json) : Option CheckReport := do
  let r ← Record.ofJson? ["schema", "tool", "started_at", "finished_at", "gate", "stacks",
    "data"] false v
  return { schema := ← r.required "schema" readText?
           tool := ← r.required "tool" Tool.ofJson?
           startedAt := ← r.required "started_at" Timestamp.ofJson?
           finishedAt := ← r.required "finished_at" Timestamp.ofJson?
           gate := ← r.required "gate" Gate.ofJson?
           results := ← r.required "stacks" (readItems? StackResult.ofJson?)
           data := ← r.required "data" Totals.ofJson? }

/-- Reads a report. -/
def CheckReport.read (s : String) : Except ReportError CheckReport :=
  match Json.read? s with
  | none => .error .notJson
  | some v =>
    let schema := ((v.get? "schema").bind Json.asStr?).getD ""
    if schema ≠ schemaName then .error (.unknownSchema schema)
    else match ofJson? v with
      | some r => .ok r
      | none => .error .notAReport

end StackAudit
