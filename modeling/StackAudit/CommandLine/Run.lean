import StackAudit.Check.Fixture
import StackAudit.CheckReport.Decode
import StackAudit.CommandLine.Command
import StackAudit.CommandLine.RunResult
import StackAudit.Config.Fetch
import StackAudit.Rendering.Annotations
import StackAudit.Rendering.JsonLines
import StackAudit.Rendering.Markdown
import StackAudit.Rendering.Plain
import StackAudit.Rules.Help
import StackAudit.Rules.Listing

/-!
# Running a command

An invocation in its surroundings gives an exit code, what is printed, and the files that are
written. The code of a check is that of the gate; a fixture that is not as its name says gives 2, as
do arguments that cannot be read, and every other failure gives 1.
-/
namespace StackAudit

/-- What a run asks of others: a text at an address, and workers for the stack in a directory. -/
structure Services where
  client : FetchClient
  pools : String → PoolBuilder

/-- Nothing can be reached, and there are workers for every stack. -/
def Services.offline : Services := ⟨.offline, fun _ => .ample⟩

/-- What a run finds. -/
structure Surroundings where
  disk : Disk
  services : Services
  startedAt : Timestamp
  finishedAt : Timestamp

/-- Why a run fails. -/
inductive RunError where
  | fetch (cause : FetchError)
  | readConfig (path : String) (cause : FileError)
  | config (cause : ConfigError)
  | check (cause : CheckError)
  | readReport (path : String) (cause : FileError)
  | report (cause : ReportError)
  | writeReport (path : String) (cause : FileError)
  | writeMarkdown (path : String) (cause : FileError)
deriving DecidableEq

def RunError.message : RunError → String
  | .fetch e => e.message
  | .readConfig path e => s!"read config: {path}: {e.message}"
  | .config e => e.message
  | .check e => e.message
  | .readReport path e => s!"read report: {path}: {e.message}"
  | .report e => e.message
  | .writeReport path e => s!"write report json: write: {path}: {e.message}"
  | .writeMarkdown path e => s!"write markdown output: write: {path}: {e.message}"

/-- The configuration that is used if it exists. -/
def ConfigSource.defaultPath : String := "stackguard.toml"

/-- The text of the configuration. -/
def ConfigSource.read (w : Surroundings) : ConfigSource → Except RunError String
  | .remote url => (w.services.client.fetch url FetchClient.defaultAttempts).outcome.mapError .fetch
  | .file path => (w.disk.readText path).mapError (.readConfig path)
  | .default =>
    if w.disk.isFile defaultPath then
      (w.disk.readText defaultPath).mapError (.readConfig defaultPath)
    else .ok ""

namespace RunResult

def ofError (e : RunError) : RunResult :=
  { code := 1, stderr := Text.endLines ["stackguard error: " ++ e.message] }

/-- What a failure or a result comes to. -/
def ofExcept : Except RunError RunResult → RunResult
  | .ok o => o
  | .error e => ofError e

end RunResult

namespace CheckReport

/-- A report in a format, as it is printed. -/
def printed (r : CheckReport) : OutputFormat → String
  | .json => r.text ++ "\n"
  | .text => r.fromRoot.plainText
  | .jsonLines => r.fromRoot.jsonLines
  | .markdown => r.fromRoot.markdown

/-- Reads the report in a file. -/
def readFile (d : Disk) (path : String) : Except RunError CheckReport := do
  let text ← (d.readText path).mapError (.readReport path)
  (CheckReport.read text).mapError .report

end CheckReport

namespace Invocation

/-- Checks with the configuration of the invocation. -/
def runCheck (w : Surroundings) (i : Invocation) (root : String) (o : Overrides) :
    Except RunError Checked := do
  let text ← i.config.read w
  let request : CheckRequest := ⟨root, text, o, none, w.services.pools⟩
  (StackAudit.check w.disk request w.startedAt w.finishedAt).mapError .check

/-- Checks stacks, and writes the report where it is asked for. -/
def checked (w : Surroundings) (i : Invocation) (o : CheckOptions) : Except RunError RunResult := do
  let c ← i.runCheck w o.stack ⟨i.profile, o.failOn, o.workers⟩
  let written ← match o.reportOut with
    | none => .ok []
    | some path =>
      (w.disk.writeText path c.report.text).mapError (.writeReport path) |>.map
        fun _ => [(path, c.report.text)]
  return {
    code := c.report.gate.status.exitCode
    stdout := c.report.printed o.format
    written := written }

/-- The files that tell of a failed check: a report of its own, if it can be written. -/
def failureFiles (w : Surroundings) (o : CheckOptions) (e : RunError) : List (String × String) :=
  match o.reportOut with
  | none => []
  | some path =>
    let text := (CheckReport.ofFailure e.message w.finishedAt).text
    match w.disk.writeText path text with
    | .ok _ => [(path, text)]
    | .error _ => []

/-- Renders a report as Markdown, to a file or to the output. -/
def rendered (w : Surroundings) (report : String) (output : Option String) :
    Except RunError RunResult := do
  let text := (← CheckReport.readFile w.disk report).fromRoot.markdown
  match output with
  | none => return { code := 0, stdout := text }
  | some path =>
    let _ ← (w.disk.writeText path text).mapError (.writeMarkdown path)
    return { code := 0, written := [(path, text)] }

/-- Renders the violations of a report, at most the given number. -/
def annotated (w : Surroundings) (report : String) (max : Nat) : Except RunError RunResult := do
  let r ← CheckReport.readFile w.disk report
  return { code := 0, stdout := Text.endLines ((Annotations.ofReport r.fromRoot).take max) }

/-- Explains a rule. -/
def explained (key : String) : RunResult :=
  let key := Text.trim key
  match RuleHelp.find? key with
  | some h => { code := 0, stdout := h.text }
  | none => { code := 1, stderr := RuleKey.unknownText key }

/-- Lists the rules. -/
def listed (w : Surroundings) (i : Invocation) (asJson : Bool) : Except RunError RunResult := do
  let text ← i.config.read w
  let p ← (Policy.ofFile text { profile := i.profile }).mapError .config
  let l := Rules.listing p
  let shown := if asJson then (Json.arr (l.map RuleEntry.toJson)).prettyText ++ "\n"
    else RuleEntry.listText l
  return { code := 0, stdout := shown }

/-- Compares stacks with their names. -/
def compared (w : Surroundings) (i : Invocation) (root : String) : Except RunError RunResult := do
  let c ← i.runCheck w root { profile := i.profile }
  let s := FixtureSuite.ofReport c.report
  return { code := if s.passed then 0 else 2, stdout := s.text }

/-- Runs the command. -/
def run (w : Surroundings) (i : Invocation) : RunResult :=
  match i.command with
  | .check o =>
    match i.checked w o with
    | .ok result => result
    | .error e => { RunResult.ofError e with written := failureFiles w o e }
  | .markdown report output => .ofExcept (rendered w report output)
  | .annotations report max => .ofExcept (annotated w report max)
  | .explain key => explained key
  | .rules asJson => .ofExcept (i.listed w asJson)
  | .fixtures root => .ofExcept (i.compared w root)

end Invocation

/-- What a run comes to whose arguments ask for no command. -/
def Interruption.result : Interruption → RunResult
  | .help => { code := 0, stdout := Invocation.helpText }
  | .version => { code := 0, stdout := Text.endLines [s!"{Tool.this.name} {Tool.this.version}"] }
  | .usage e => { code := 2, stderr := Text.endLines ["error: " ++ e.message] }

/-- Runs the program with arguments. -/
def runArguments (w : Surroundings) (args : List String) : RunResult :=
  match Invocation.read args with
  | .ok i => i.run w
  | .error e => e.result

end StackAudit
