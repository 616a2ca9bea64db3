import StackAudit.CheckReport.Basic
import StackAudit.CommandLine.RunResult
import StackAudit.Config.Basic
import StackAudit.Guidance
import StackAudit.RuleKey
import StackAudit.Text.Lines

/-!
# Maintenance

Tasks for those who work on the program: whether the schema files are there, which formats they
describe, and whether every rule is explained.
-/
namespace StackAudit.Maintenance

/-- The names of the formats that have a schema. -/
def schemaNames : List String := [CheckReport.schemaName, Config.schemaName]

/-- The files of the schemas. -/
def schemaFiles : List String := schemaNames.map (· ++ ".json")

/-- The schema files that a disk does not have. -/
def missingSchemas (d : Disk) : List String :=
  schemaFiles.filter fun name => !d.isFile ("schemas/" ++ name)

/-- The parts of a guidance with their names. -/
def parts (g : Guidance) : List (String × String) :=
  [("title", g.title), ("hint", g.hint), ("description", g.description),
    ("remediation", g.remediation), ("before example", g.before), ("after example", g.after)]

/-- What the explanation of a rule lacks. -/
def gaps (key : String) : List String :=
  match Guidance.find? key with
  | none => [s!"Rule '{key}' has no explanation"]
  | some g =>
    ((parts g).filter fun (_, text) => Text.trim text = "").map
      fun (name, _) => s!"Rule '{key}' has empty {name}"

/-- What the explanations of all rules lack. -/
def allGaps : List String := RuleKey.all.flatMap gaps

def helpText : String :=
  Text.endLines [
    "xtask commands:",
    "  help              Show this message",
    "  emit-schemas      Generate JSON schemas from Rust types to schemas/",
    "  validate-schemas  Check if schemas/ matches generated output (for CI)",
    "  print-schema-ids  Print known schema IDs",
    "  conform           Run the stackguard binary over the fixture stacks and validate",
    "                    its reports against the report schema and golden files",
    "  explain-coverage  Validate all rule keys have explanations"]

/-- A list of findings. -/
def bullets (l : List String) : List String := l.map ("  - " ++ ·)

/-- A task that failed for a cause. -/
def failed (findings : List String) (cause : String) : RunResult :=
  { code := 1
    stderr := Text.endLines
      (findings ++ ["Error: xtask failed", "", "Caused by:"] ++ Text.indentLines 4 cause) }

/-- Looks for the schema files. -/
def validateSchemas (d : Disk) : RunResult :=
  match missingSchemas d with
  | [] => { code := 0, stdout := Text.endLines ["All schemas are up to date."] }
  | missing =>
    failed (["Missing schemas:"] ++ bullets missing ++
      ["", "Run `cargo xtask emit-schemas` to regenerate."]) "Schema validation failed"

/-- Looks for gaps in the explanations. -/
def explainCoverage : RunResult :=
  match allGaps with
  | [] =>
    { code := 0, stdout := Text.endLines [s!"✓ {RuleKey.all.length} rule keys have explanations"] }
  | gaps =>
    failed (bullets gaps) s!"Explain coverage validation failed with {gaps.length} errors"

/-- Runs the task that the first argument names. -/
def run (d : Disk) (args : List String) : RunResult :=
  match args.headD "help" with
  | "help" | "--help" | "-h" => { code := 0, stderr := helpText }
  | "validate-schemas" => validateSchemas d
  | "explain-coverage" => explainCoverage
  | "print-schema-ids" => { code := 0, stdout := Text.endLines schemaNames }
  | other =>
    { code := 1
      stderr := Text.endLines ["Error: unknown xtask command: " ++ other, "",
        "Run `cargo xtask help` for usage."] }

end StackAudit.Maintenance
