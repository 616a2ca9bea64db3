import StackAudit.Rendering.Basic

/-!
# Annotations

One workflow command for each violation: an error if it fails the gate, else a warning. Data escapes
the percent sign and line breaks; a property also what ends it.
-/
namespace StackAudit.Annotations

def escapeDataChar (c : Char) : List Char :=
  if c = '%' then "%25".toList
  else if c = '\r' then "%0D".toList
  else if c = '\n' then "%0A".toList
  else [c]

def escapePropertyChar (c : Char) : List Char :=
  if c = ':' then "%3A".toList
  else if c = ',' then "%2C".toList
  else escapeDataChar c

def escapeData (s : String) : String := String.ofList (s.toList.flatMap escapeDataChar)

def escapeProperty (s : String) : String := String.ofList (s.toList.flatMap escapePropertyChar)

/-- The command for a violation. -/
def ofVerdict (failOn : Severity) (v : Verdict) : String :=
  let level := if failOn ≤ v.severity then "error" else "warning"
  let place := (v.location.map fun l => " file=" ++ escapeProperty l.path.text).getD ""
  s!"::{level}{place}::" ++ escapeData s!"[{v.ruleKey}] {v.resourceId}: {v.message}"

/-- The commands for all violations of a report. -/
def ofReport (r : CheckReport) : List String := r.violations.map (ofVerdict r.gate.failOn)

end StackAudit.Annotations
