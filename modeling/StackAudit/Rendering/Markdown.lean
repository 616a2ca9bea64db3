import StackAudit.Rendering.Basic
import StackAudit.Text.Lines

/-!
# Reports as Markdown

The decision and the totals, and for each stack its error or its violations.
-/
namespace StackAudit

/-- Where a violation is, behind its message. -/
def Location.markdown (l : Location) : String :=
  s!" (`{l.path.text}`#{l.document.getD 0})"

/-- The lines of a violation. -/
def Verdict.markdown (v : Verdict) : List String :=
  let place := (v.location.map Location.markdown).getD ""
  let severity := Text.asciiUpper v.severity.name
  [s!"- [{severity}] `{v.ruleKey}` on `{v.resourceId}`: {v.message}{place}"] ++
    (v.help.map ("  - help: " ++ ·)).toList

/-- The lines of a stack below its heading. -/
def StackResult.markdownBody (s : StackResult) : List String :=
  match s.error with
  | some e => ["Error: " ++ e]
  | none => match s.verdicts.filter Verdict.isViolation with
    | [] => ["No violations."]
    | vs => vs.flatMap Verdict.markdown

/-- The lines of a stack. -/
def StackResult.markdown (s : StackResult) : List String :=
  [s!"## `{s.name}` ({s.status.name})", ""] ++ s.markdownBody ++ [""]

namespace CheckReport

/-- The lines before the stacks. -/
def markdownHead (r : CheckReport) : List String :=
  let gate := Text.asciiUpper r.gate.status.name
  let reasons := ", ".intercalate r.gate.reasons
  ["# Stackguard report", "",
    s!"- Gate: **{gate}** (fail on `{r.gate.failOn.name}`, profile `{r.data.profile}`)",
    s!"- Stacks: {r.results.length}",
    s!"- Violations: {r.total Summary.violationCount} / Passes: {r.total Summary.passCount}", ""] ++
    if r.gate.reasons.isEmpty then [] else ["> Reasons: " ++ reasons, ""]

/-- The report as Markdown. -/
def markdown (r : CheckReport) : String :=
  let body := if r.results.isEmpty then ["No stacks evaluated."]
    else r.results.flatMap StackResult.markdown
  Text.endLines (r.markdownHead ++ body)

end CheckReport

end StackAudit
