import StackAudit.Adapters.AccessBlock
import StackAudit.Adapters.Bucket
import StackAudit.Adapters.Container
import StackAudit.Adapters.Workload

/-!
# The built-in adapters
-/
namespace StackAudit.AdapterRegistry

/-- Every built-in type token with its adapter. -/
def builtinEntries : List (String × Adapter) :=
  Adapters.bucketTokens.map (·, Adapters.bucket) ++
    Adapters.accessBlockTokens.map (·, Adapters.accessBlock) ++
    Adapters.workloadTokens.map (fun e => (e.1, Adapters.workload)) ++
    Adapters.containerTokens.map (·, Adapters.container)

/-- The registry of all built-in adapters. -/
def builtin : AdapterRegistry :=
  builtinEntries.foldl (fun r e => r.register e.1 e.2) ∅

end StackAudit.AdapterRegistry
