import StackAudit.CommandLine.Arguments
import StackAudit.Json.Path
import StackAudit.Text.Lines

/-!
# Commands

What the program can be asked to do. Options on the configuration may stand before the command or
among its own arguments; where both give a value the command's counts.
-/
namespace StackAudit

/-- How a report is printed. -/
inductive OutputFormat where
  | text
  | json
  | jsonLines
  | markdown
deriving DecidableEq

/-- The format of a name. -/
def OutputFormat.ofName? : String → Option OutputFormat
  | "text" => some .text
  | "json" => some .json
  | "jsonl" => some .jsonLines
  | "markdown" => some .markdown
  | _ => none

/-- The options of a check. -/
structure CheckOptions where
  stack : String := "."
  failOn : Option String := none
  workers : Option Nat := none
  /-- Where else the report is written. -/
  reportOut : Option String := none
  format : OutputFormat := .text
deriving DecidableEq

inductive Command where
  /-- Check stacks. -/
  | check (options : CheckOptions)
  /-- Render a report as Markdown. -/
  | markdown (report : String) (output : Option String)
  /-- Render the violations of a report as annotations. -/
  | annotations (report : String) (max : Nat)
  /-- Explain a rule. -/
  | explain (key : String)
  /-- List the rules. -/
  | rules (asJson : Bool)
  /-- Compare stacks with their names. -/
  | fixtures (root : String)
deriving DecidableEq

/-- Where the configuration comes from. -/
inductive ConfigSource where
  /-- The file of the default name, if there is one. -/
  | default
  | file (path : String)
  | remote (url : String)
deriving DecidableEq

/-- What the program is called for. -/
structure Invocation where
  config : ConfigSource
  profile : Option String
  command : Command
deriving DecidableEq

/-- The names of the commands. -/
inductive CommandName where
  | check
  | md
  | annotations
  | explain
  | rules
  | fixtures
deriving DecidableEq

namespace CommandName

def all : List CommandName := [.check, .md, .annotations, .explain, .rules, .fixtures]

def text : CommandName → String
  | .check => "check"
  | .md => "md"
  | .annotations => "annotations"
  | .explain => "explain"
  | .rules => "rules"
  | .fixtures => "fixtures"

def ofText? (s : String) : Option CommandName := all.find? (·.text = s)

/-- What a command does, in a line. -/
def summary : CommandName → String
  | .check => "Evaluate stacks against the rule catalog"
  | .md => "Render markdown from an existing JSON report"
  | .annotations => "Render GitHub Actions annotations from an existing JSON report"
  | .explain => "Explain a rule with remediation guidance"
  | .rules => "List the rule catalog as configured"
  | .fixtures => "Check fixture stacks against the expectation encoded in their names"

/-- The options of the command itself. -/
def options : CommandName → List OptionSpec
  | .check => [⟨"stack", none, .value⟩, ⟨"fail-on", none, .value⟩, ⟨"workers", none, .value⟩,
      ⟨"report-out", none, .value⟩, ⟨"format", none, .value⟩]
  | .md => [⟨"report", none, .value⟩, ⟨"output", some 'o', .value⟩]
  | .annotations => [⟨"report", none, .value⟩, ⟨"max", none, .value⟩]
  | .explain => []
  | .rules => [⟨"json", none, .switch⟩]
  | .fixtures => []

/-- The words that the command takes; all are needed. -/
def words : CommandName → List String
  | .explain => ["RULE_KEY"]
  | .fixtures => ["ROOT"]
  | _ => []

end CommandName

namespace Command

/-- The report that is rendered if none is named. -/
def defaultReport : String := "artifacts/stackguard/report.json"

/-- The number that an option gives. -/
def number? (a : Arguments) (option : String) : Except Interruption (Option Nat) :=
  match a.value? option with
  | none => .ok none
  | some s => match Json.position? s with
    | some n => .ok (some n)
    | none => .error (.usage (.invalidValue option s))

/-- The output format of a check. -/
def format (a : Arguments) : Except Interruption OutputFormat :=
  match a.value? "format" with
  | none => .ok .text
  | some s => match OutputFormat.ofName? s with
    | some f => .ok f
    | none => .error (.usage (.invalidValue "format" s))

/-- The only word of a command. -/
def word (a : Arguments) (name : String) : Except Interruption String :=
  match a.words with
  | w :: _ => .ok w
  | [] => .error (.usage (.missingWord name))

/-- The command of its name and arguments. -/
def ofArguments (name : CommandName) (a : Arguments) : Except Interruption Command := do
  let report := (a.value? "report").getD defaultReport
  match name with
  | .check =>
    let workers ← number? a "workers"
    let format ← format a
    return .check ⟨(a.value? "stack").getD ".", a.value? "fail-on", workers,
      a.value? "report-out", format⟩
  | .md => return .markdown report (a.value? "output")
  | .annotations => return .annotations report ((← number? a "max").getD 10)
  | .explain => return .explain (← word a "RULE_KEY")
  | .rules => return .rules (a.has "json")
  | .fixtures => return .fixtures (← word a "ROOT")

end Command

namespace Invocation

/-- The options that every command has, and that may stand before it. -/
def sharedOptions : List OptionSpec :=
  [⟨"config", none, .value⟩, ⟨"config-url", none, .value⟩, ⟨"profile", none, .value⟩,
    ⟨"verbose", some 'v', .count⟩, ⟨"help", some 'h', .help⟩]

/-- The options before the command. -/
def leadingOptions : List OptionSpec := sharedOptions ++ [⟨"version", some 'V', .version⟩]

/-- Refuses arguments that name two configurations. -/
def checkSources (a : Arguments) : Except Interruption Unit :=
  if (a.value? "config").isSome && (a.value? "config-url").isSome then
    .error (.usage (.conflict "config-url" "config"))
  else .ok ()

/-- Where the configuration comes from. An address counts more than a file. -/
def source (url path : Option String) : ConfigSource :=
  match url, path with
  | some url, _ => .remote url
  | none, some path => .file path
  | none, none => .default

/-- The invocation of the arguments before a command, its name and its own arguments. -/
def assemble (leading : Arguments) (name : CommandName) (a : Arguments) :
    Except Interruption Invocation := do
  let command ← Command.ofArguments name a
  checkSources a
  checkSources leading
  let shared (option : String) := (a.value? option).or (leading.value? option)
  return ⟨source (shared "config-url") (shared "config"), shared "profile", command⟩

/-- Reads the words behind `help`: at most one, the name of a command. -/
def readHelp : List String → Except Interruption Invocation
  | [] => .error .help
  | [name] =>
    if name = "help" ∨ (CommandName.ofText? name).isSome then .error .help
    else .error (.usage (.unknownCommand name))
  | _ :: word :: _ => .error (.usage (.unknownCommand word))

/-- Reads the arguments from the command's name on. -/
def readCommand (leading : Arguments) (name : String) (args : List String) :
    Except Interruption Invocation :=
  match CommandName.ofText? name with
  | some n => do
    assemble leading n (← Arguments.readAll (n.options ++ sharedOptions) n.words.length args)
  | none =>
    if name = "help" then readHelp args else .error (.usage (.unknownCommand name))

/-- Reads arguments up to the command and then those of the command. -/
def readFrom (leading : Arguments) : List String → Except Interruption Invocation
  | [] => do
    let _ ← leading.finish
    .error (.usage .missingCommand)
  | arg :: rest => do
    let leading ← leading.read leadingOptions arg
    match leading.words with
    | [] => readFrom leading rest
    | name :: _ =>
      if leading.literal then .error (.usage (.unexpectedWord name))
      else readCommand leading name rest

/-- Reads the arguments of the program. -/
def read (args : List String) : Except Interruption Invocation := readFrom {} args

/-- What is said to someone who asks for help. -/
def helpText : String :=
  Text.endLines (
    ["Security policy checks for infrastructure-as-code resource stacks", "",
      "Usage: stackguard [OPTIONS] <COMMAND>", "", "Commands:"] ++
    CommandName.all.map (fun n => "  " ++ Text.padEnd 13 n.text ++ n.summary) ++
    ["", "Options:"] ++
    leadingOptions.map fun o =>
      let short := match o.short with
        | some c => String.ofList ['-', c, ',', ' ']
        | none => "    "
      "  " ++ short ++ "--" ++ o.long)

end Invocation

end StackAudit
