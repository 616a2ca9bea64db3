import StackAudit.Config.Basic
import StackAudit.Glob.Parser
import StackAudit.Policy
import StackAudit.RuleKey
import StackAudit.Text.Pieces

/-!
# Resolving a configuration

A policy is put together from three layers: the preset of the profile, the configuration over it,
and the overrides of the command line over both. Each layer changes only what it sets.
-/
namespace StackAudit

/-- Settings given on the command line. -/
structure Overrides where
  profile : Option String := none
  failOn : Option String := none
  workers : Option Nat := none
deriving DecidableEq

/-- A text that is no setting of its kind. -/
inductive SettingError where
  | unknownSeverity (text : String)
  | unknownMode (text : String)
deriving DecidableEq

def SettingError.message : SettingError → String
  | .unknownSeverity s => s!"unknown severity: {s} (expected low|medium|high|critical)"
  | .unknownMode s =>
    s!"unknown unknown_kinds: {s} (expected 'reject' or 'passthrough')"

/-- Why a configuration cannot be resolved. -/
inductive ResolveError where
  | failOn (cause : SettingError)
  | noWorkers
  | unknownKinds (cause : SettingError)
  | unknownRule (key : String)
  | ruleSeverity (key : String) (cause : SettingError)
  | allowGlob (key pattern : String)
deriving DecidableEq

def ResolveError.message : ResolveError → String
  | .failOn e => "invalid fail_on: " ++ e.message
  | .noWorkers => "workers must be at least 1"
  | .unknownKinds e => e.message
  | .unknownRule key =>
    let known := ", ".intercalate RuleKey.all
    s!"unknown rule key in [rules]: {key} (known: {known})"
  | .ruleSeverity key e => s!"invalid severity for {key}: " ++ e.message
  | .allowGlob key pattern => s!"invalid allow glob for {key}: {pattern}"

/-- The severity of a name in any case. -/
def Severity.parse (s : String) : Except SettingError Severity :=
  match Severity.ofName? (Text.asciiLower s) with
  | some v => .ok v
  | none => .error (.unknownSeverity (Text.asciiLower s))

def UnknownKinds.parse (s : String) : Except SettingError UnknownKinds :=
  if s = "reject" then .ok .reject
  else if s = "passthrough" then .ok .passthrough
  else .error (.unknownMode s)

namespace Policy

/-- Reads a setting if there is one, and else keeps what is there. -/
def override {α ε δ : Type} (old : α) (setting : Option String) (parse : String → Except ε α)
    (wrap : ε → δ) : Except δ α :=
  match setting with
  | none => .ok old
  | some s => (parse s).mapError wrap

/-- The number of workers, which may not be zero. -/
def readWorkers (old : Option Nat) : Option Nat → Except ResolveError (Option Nat)
  | none => .ok old
  | some 0 => .error .noWorkers
  | some n => .ok (some n)

/-- Checks that every pattern is a glob pattern. -/
def checkAllowList (key : String) (allow : List String) : Except ResolveError Unit :=
  allow.forM fun pattern => (Glob.parse pattern).mapError (fun _ => .allowGlob key pattern) *> .ok ()

/-- The settings of a rule under what a user sets for it. -/
def layer (old : RulePolicy) (key : String) (c : RuleConfig) :
    Except ResolveError RulePolicy := do
  let severity ← override old.severity c.severity (fun s => (Severity.parse s).map some)
    (.ruleSeverity key)
  checkAllowList key c.allow
  return { enabled := c.enabled.getD old.enabled
           severity := severity
           allow := if c.allow.isEmpty then old.allow else c.allow }

/-- Adds what a user sets for one rule. -/
def layerRule (rules : KeyMap RulePolicy) (e : String × RuleConfig) :
    Except ResolveError (KeyMap RulePolicy) :=
  if RuleKey.all.contains e.1 then do
    return rules.insert e.1 (← layer ((rules.get? e.1).getD {}) e.1 e.2)
  else .error (.unknownRule e.1)

/-- The policy of a configuration under the overrides. -/
def resolve (c : Config) (o : Overrides) : Except ResolveError Policy := do
  let base := preset ((o.profile.or c.profile).getD "strict")
  let failOn ← override base.failOn (o.failOn.or c.failOn) Severity.parse .failOn
  let workers ← readWorkers base.workers (o.workers.or c.workers)
  let unknownKinds ← override base.unknownKinds c.unknownKinds UnknownKinds.parse .unknownKinds
  let rules ← c.rules.entries.foldlM layerRule base.rules
  return { base with
    failOn := failOn
    workers := workers
    unknownKinds := unknownKinds
    requiredLabels := c.requiredLabels.getD base.requiredLabels
    rules := rules }

end Policy

end StackAudit
