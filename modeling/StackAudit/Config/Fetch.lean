/-!
# Fetching a configuration

A configuration may be fetched from a remote place. A fetch that fails is tried again, up to a given
number of attempts and at least once.
-/
namespace StackAudit

/-- Asks for the text at an address. The calls of a run are numbered from zero, so that later ones
may be answered otherwise. -/
abbrev FetchClient := (url : String) → (call : Nat) → Except String String

/-- A client that reaches nothing. -/
def FetchClient.offline : FetchClient := fun url _ => .error ("fetch " ++ url)

/-- A fetch that failed at every attempt. -/
structure FetchError where
  url : String
  attempts : Nat
  /-- What the last attempt gave. -/
  cause : String
deriving DecidableEq

def FetchError.message (e : FetchError) : String :=
  s!"fetch config from {e.url} after {e.attempts} attempt(s): {e.cause}"

/-- What a fetch gave, and how often the client was called for it. -/
structure Fetched where
  outcome : Except FetchError String
  calls : Nat

namespace Fetched

/-- Calls the client until it succeeds, at most `more` times again after the given call. -/
def tryFrom (client : FetchClient) (url : String) (call : Nat) : (more : Nat) → Fetched
  | 0 =>
    match client url call with
    | .ok text => ⟨.ok text, call + 1⟩
    | .error cause => ⟨.error ⟨url, call + 1, cause⟩, call + 1⟩
  | more + 1 =>
    match client url call with
    | .ok text => ⟨.ok text, call + 1⟩
    | .error _ => tryFrom client url (call + 1) more

end Fetched

/-- Fetches the text at an address. -/
def FetchClient.fetch (client : FetchClient) (url : String) (attempts : Nat) : Fetched :=
  Fetched.tryFrom client url 0 (attempts - 1)

/-- How often a configuration is asked for before the run gives up. -/
def FetchClient.defaultAttempts : Nat := 3

end StackAudit
