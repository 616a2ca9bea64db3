import StackAudit.Rendering.Basic
import StackAudit.Text.Lines

/-!
# Reports as plain text

One line for each stack, its error, each verdict, and at last for the whole.
-/
namespace StackAudit

/-- Writes each line break within a text as two characters. -/
def flattenBreaks : List Char → List Char
  | '\r' :: '\n' :: r => '\\' :: 'n' :: flattenBreaks r
  | c :: r => if c = '\n' ∨ c = '\r' then '\\' :: 'n' :: flattenBreaks r else c :: flattenBreaks r
  | [] => []

/-- A text on one line. -/
def onOneLine (s : String) : String := String.ofList (flattenBreaks s.toList)

def Verdict.line (v : Verdict) : String :=
  s!"  {v.resourceId} {v.ruleKey} {v.severity.name} {v.outcome.name}: " ++ onOneLine v.message

def StackResult.lines (s : StackResult) : List String :=
  [s!"stack {s.name}: {s.status.name}"] ++ (s.error.map ("  error: " ++ onOneLine ·)).toList ++
    s.verdicts.map Verdict.line

namespace CheckReport

def summaryLine (r : CheckReport) : String :=
  let worst := (r.worstSeverity.map Severity.name).getD "none"
  s!"summary: stacks={r.results.length} resources={r.total Summary.resourcesEvaluated} " ++
    s!"violations={r.total Summary.violationCount} passes={r.total Summary.passCount} " ++
    s!"worst={worst} gate={r.gate.status.name} fail_on={r.gate.failOn.name}"

/-- The report as plain text. -/
def plainText (r : CheckReport) : String :=
  Text.endLines (r.results.flatMap StackResult.lines ++ [r.summaryLine])

end CheckReport

end StackAudit
