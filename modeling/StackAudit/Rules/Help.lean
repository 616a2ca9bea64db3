import StackAudit.Guidance
import StackAudit.Rules.Builtin
import StackAudit.Text.Lines

/-!
# Help on rules

What a rule is about and how to mend its violations; for a key that is not known, the keys that share
a word with it.
-/
namespace StackAudit

/-- A rule with the guidance on it. -/
structure RuleHelp where
  rule : Rule
  guidance : Guidance

namespace RuleHelp

/-- The help on a key. -/
def find? (key : String) : Option RuleHelp := do
  let rule ← (Rules.builtin Policy.strict).find? (·.key = key)
  return ⟨rule, ← Guidance.find? key⟩

def kindNames (h : RuleHelp) : List String := h.rule.appliesTo.map ResourceKind.name

/-- The whole help. -/
def text (h : RuleHelp) : String :=
  let kinds := ", ".intercalate h.kindNames
  let g := h.guidance
  Text.endLines (
    [s!"{h.rule.key} ({h.rule.severity.name}) on {kinds}", g.title, "", g.description, "",
      "How to fix:"] ++ Text.indentLines 2 g.remediation ++
    ["", "Violating declaration:"] ++ Text.indentLines 4 g.before ++
    ["", "Compliant declaration:"] ++ Text.indentLines 4 g.after)

end RuleHelp

namespace RuleKey

/-- The words of an identifier that are long enough to search for. -/
def searchWords (identifier : String) : List String :=
  ((identifier.toList.splitOnP fun c => !c.isAlphanum).map String.ofList).filter (2 < ·.length)

/-- The keys that share a word with the identifier. -/
def suggestions (identifier : String) : List String :=
  let wanted := searchWords identifier
  all.filter fun key => (Text.pieces '-' key).any wanted.contains

/-- What there is to say about a key that is not known. -/
def unknownText (identifier : String) : String :=
  let close := ", ".intercalate (suggestions identifier)
  Text.endLines (
    ["Unknown rule key: " ++ identifier] ++
    (if close = "" then [] else [s!"Did you mean: {close}?"]) ++
    ["", "Available rule keys:"] ++ all.map ("  - " ++ ·))

end RuleKey

end StackAudit
