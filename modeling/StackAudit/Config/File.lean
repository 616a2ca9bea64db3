import StackAudit.Config.Resolution
import StackAudit.Toml.Document

/-!
# Configuration files

A configuration file is TOML text. A blank one sets nothing.
-/
namespace StackAudit

/-- Why a configuration file gives no policy. -/
inductive ConfigError where
  | notValid
  | unresolved (cause : ResolveError)
deriving DecidableEq

def ConfigError.message : ConfigError → String
  | .notValid => "parse config"
  | .unresolved e => "resolve config: " ++ e.message

namespace Config

/-- Reads TOML text. -/
def ofToml? (s : String) : Option Config := (Toml.read? s).bind ofJson?

/-- Reads a configuration file. -/
def ofFile? (s : String) : Option Config := if Text.trim s = "" then some {} else ofToml? s

end Config

/-- The policy of a configuration file under the overrides. -/
def Policy.ofFile (s : String) (o : Overrides) : Except ConfigError Policy :=
  match Config.ofFile? s with
  | none => .error .notValid
  | some c => (Policy.resolve c o).mapError .unresolved

end StackAudit
