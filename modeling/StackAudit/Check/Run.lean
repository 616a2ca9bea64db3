import StackAudit.Check.Gate
import StackAudit.Config.File
import StackAudit.Evaluation
import StackAudit.Rules.Builtin
import StackAudit.Stack.Load

/-!
# Checking a directory of stacks

The configuration is read and resolved first; then every stack at or below the root is loaded and
judged. A stack whose files are malformed is reported and the others are still judged; any other
failure ends the run.
-/
namespace StackAudit

/-- Why a run has no report of its own. -/
inductive CheckError where
  | config (cause : ConfigError)
  | catalog (cause : CatalogError)
  | notDirectory (root : String)
  | discovery (root : String) (cause : FileError)
  | load (cause : LoadError)
  | evaluation (stack : String) (cause : EvaluationError)
deriving DecidableEq

/-- The text about a directory that could not be listed. -/
def listingMessage (root : String) (e : FileError) : String := s!"read dir {root}: {e.message}"

def CheckError.message : CheckError → String
  | .config e => e.message
  | .catalog e => "build rule catalog: " ++ e.message
  | .notDirectory root => "stack root is not a directory: " ++ root
  | .discovery root e => "discover stacks: " ++ listingMessage root e
  | .load e => e.message
  | .evaluation stack e => s!"evaluate stack {stack}: {e.message}"

/-- What a run is asked to do, and the workers it can have for it. -/
structure CheckRequest where
  root : String
  configText : String := ""
  overrides : Overrides := {}
  /-- A flag to stop the run, if there is one, and whether it is up. -/
  flag : Option Bool := none
  /-- The pools of workers for the stack in a directory. A run asks for at most one with each stack,
  so the answer may be another every time. -/
  pools : String → PoolBuilder := fun _ => .ample

/-- The result of a stack that could not be read. -/
def StackResult.ofMalformed (name : String) (path : StackPath) (e : Malformed) : StackResult :=
  ⟨name, path, .error, {}, some e.message, []⟩

/-- The result of a stack that was judged. -/
def StackResult.ofReport (name : String) (path : StackPath) (r : Report) : StackResult :=
  ⟨name, path, if r.isCompliant then .compliant else .nonCompliant, r.summary, none, r.verdicts⟩

/-- Loads and judges the stack in a directory. -/
def checkStack (d : Disk) (request : CheckRequest) (p : Policy) (c : Catalog) (dir : String) :
    Except CheckError StackResult :=
  let path := StackPath.relativeTo request.root dir
  match Stack.load d dir .builtin p.unknownKinds with
  | .error (.malformed e) => .ok (.ofMalformed (Stack.nameOf dir) path e)
  | .error e => .error (.load e)
  | .ok stack => match evaluateWith stack.graph c request.flag p.workers (request.pools dir) with
    | .error e => .error (.evaluation stack.name e)
    | .ok r => .ok (.ofReport stack.name path r)

/-- What a run gives. -/
structure Checked where
  policy : Policy
  report : CheckReport

/-- Checks all stacks at or below the root. -/
def check (d : Disk) (request : CheckRequest) (startedAt finishedAt : Timestamp) :
    Except CheckError Checked := do
  let p ← (Policy.ofFile request.configText request.overrides).mapError .config
  let c ← (Rules.catalog p).mapError .catalog
  if !d.isDir request.root then .error (.notDirectory request.root)
  else
    let dirs ← (d.discover request.root).mapError (.discovery request.root)
    let results ← dirs.mapM (checkStack d request p c)
    return {
      policy := p
      report :=
        { schema := CheckReport.schemaName
          tool := .this
          startedAt := startedAt
          finishedAt := finishedAt
          gate := Gate.ofResults results p.failOn
          results := results
          data := Totals.ofResults results p.profile p.failOn c.size } }

end StackAudit
