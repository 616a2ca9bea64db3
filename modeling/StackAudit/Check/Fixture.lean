import StackAudit.Check.Run
import StackAudit.Text.Lines

/-!
# Fixtures

A stack may say by its name what is expected of it: `secure` at an end of the name stands for no
violation at all, `insecure` for violations of which one is high or worse.
-/
namespace StackAudit

/-- What the name of a stack promises. -/
inductive Expectation where
  | secure
  | insecure
  | none
deriving DecidableEq

namespace Expectation

def name : Expectation → String
  | .secure => "secure"
  | .insecure => "insecure"
  | .none => "none"

/-- What a name promises. -/
def ofName (stack : String) : Expectation :=
  if Text.endsWith "-insecure" stack || Text.startsWith "insecure-" stack then .insecure
  else if Text.endsWith "-secure" stack || Text.startsWith "secure-" stack then .secure
  else .none

/-- Whether a summary is what is expected. -/
def isMet (s : Summary) : Expectation → Bool
  | .secure => s.violationCount = 0
  | .insecure => 0 < s.violationCount && s.worstSeverity.any (Severity.high ≤ ·)
  | .none => true

end Expectation

/-- How a stack compares with its name. -/
structure FixtureCase where
  stack : String
  expectation : Expectation
  passed : Bool
  detail : String
deriving DecidableEq

namespace FixtureCase

/-- Judges the result of a stack. One that could not be read never passes. -/
def ofResult (s : StackResult) : FixtureCase :=
  let expected := Expectation.ofName s.name
  if s.status = .error then
    let cause := s.error.getD "unknown error"
    ⟨s.name, expected, false, "could not be evaluated: " ++ cause⟩
  else
    let worst := (s.summary.worstSeverity.map Severity.name).getD "none"
    let detail := s!"{s.summary.violationCount} violation(s), worst {worst}"
    ⟨s.name, expected, expected.isMet s.summary, detail⟩

def line (c : FixtureCase) : String :=
  let mark := if c.passed then "ok  " else "FAIL"
  s!"{mark} {c.stack} (expected {c.expectation.name}): {c.detail}"

end FixtureCase

/-- The cases of a run, in order. -/
structure FixtureSuite where
  cases : List FixtureCase
deriving DecidableEq

namespace FixtureSuite

/-- Judges the results in a report. -/
def ofReport (r : CheckReport) : FixtureSuite := ⟨r.results.map .ofResult⟩

def passed (s : FixtureSuite) : Bool := s.cases.all FixtureCase.passed

def failures (s : FixtureSuite) : List FixtureCase := s.cases.filter (!·.passed)

def text (s : FixtureSuite) : String :=
  let failed := s.failures.length
  Text.endLines (s.cases.map FixtureCase.line ++
    [s!"{s.cases.length} fixture(s), {s.cases.length - failed} passed, {failed} failed"])

end FixtureSuite

end StackAudit
