import StackAudit.Json.Record
import StackAudit.Json.Printer

/-!
# Configurations

What a user may set. Every setting is optional; what is not set is left to the profile. Settings
that are not known are errors.
-/
namespace StackAudit

/-- What a user may set for one rule. -/
structure RuleConfig where
  enabled : Option Bool := none
  severity : Option String := none
  allow : List String := []
deriving DecidableEq

/-- What a user may set. -/
structure Config where
  schema : Option String := none
  profile : Option String := none
  failOn : Option String := none
  workers : Option Nat := none
  unknownKinds : Option String := none
  requiredLabels : Option (List String) := none
  rules : KeyMap RuleConfig := ∅
deriving DecidableEq

/-- The name of the format of configurations. -/
def Config.schemaName : String := "stackguard.config.v1"

open Json (Record readText? readItems?)

/-- A count below `2 ^ 64`. -/
def readWord? : Json → Option Nat
  | .num n => n.toNat?
  | _ => none

namespace RuleConfig

/-- Reads the settings of a rule. -/
def ofJson? (v : Json) : Option RuleConfig := do
  let r ← Record.ofJson? ["enabled", "severity", "allow"] true v
  return { enabled := ← r.defaulted "enabled" none (Record.orNull Json.asBool?)
           severity := ← r.defaulted "severity" none (Record.orNull readText?)
           allow := ← r.defaulted "allow" [] (readItems? readText?) }

def toJson (c : RuleConfig) : Json :=
  .obj ((c.enabled.map fun b => ("enabled", Json.bool b)).toList ++
    (c.severity.map fun s => ("severity", Json.str s)).toList ++
    [("allow", .arr (c.allow.map .str))])

end RuleConfig

namespace Config

/-- Reads the settings of the rules. -/
def rulesOfJson? (v : Json) : Option (KeyMap RuleConfig) := do
  return KeyMap.ofList (← (← v.asObj?).mapM fun e => do return (e.1, ← RuleConfig.ofJson? e.2))

/-- Reads a configuration. -/
def ofJson? (v : Json) : Option Config := do
  let r ← Record.ofJson? ["schema", "profile", "fail_on", "workers", "unknown_kinds",
    "required_labels", "rules"] true v
  return { schema := ← r.defaulted "schema" none (Record.orNull readText?)
           profile := ← r.defaulted "profile" none (Record.orNull readText?)
           failOn := ← r.defaulted "fail_on" none (Record.orNull readText?)
           workers := ← r.defaulted "workers" none (Record.orNull readWord?)
           unknownKinds := ← r.defaulted "unknown_kinds" none (Record.orNull readText?)
           requiredLabels := ← r.defaulted "required_labels" none
             (Record.orNull (readItems? readText?))
           rules := ← r.defaulted "rules" ∅ rulesOfJson? }

/-- A text that is left out when it is not set. -/
def textField (name : String) (s : Option String) : List (String × Json) :=
  (s.map fun s => (name, Json.str s)).toList

def toJson (c : Config) : Json :=
  .obj (textField "schema" c.schema ++ textField "profile" c.profile ++
    textField "fail_on" c.failOn ++
    ((c.workers.bind fun n => Number.ofInt? n).map fun n => ("workers", Json.num n)).toList ++
    textField "unknown_kinds" c.unknownKinds ++
    (c.requiredLabels.map fun l => ("required_labels", Json.arr (l.map .str))).toList ++
    [("rules", .obj (c.rules.map RuleConfig.toJson).entries)])

end Config

end StackAudit
