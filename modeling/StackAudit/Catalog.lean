import StackAudit.Rule
import StackAudit.Text.Quoted

/-!
# Rule catalogs

The rules of a run, by their keys. A key can be registered once. The rules for a kind come in the
order of their severities, the greatest first, and of their keys where the severities are equal.
-/
namespace StackAudit

/-- Why a rule or a catalog was refused. -/
inductive CatalogError where
  /-- A rule with this key is registered already. -/
  | duplicateKey (key : String)
  /-- An entry of an allow list is no glob pattern. -/
  | invalidAllowPattern (rule pattern : String)
deriving DecidableEq

/-- The text of an error. -/
def CatalogError.message : CatalogError → String
  | .duplicateKey key => s!"duplicate rule key: {key}"
  | .invalidAllowPattern rule pattern => s!"invalid allow pattern for {rule}: {pattern}"

/-- A set of rules with distinct keys. -/
structure Catalog where
  /-- The rules by their keys. -/
  rules : KeyMap Rule

namespace Catalog

instance : EmptyCollection Catalog := ⟨⟨∅⟩⟩

instance : Inhabited Catalog := ⟨∅⟩

/-- Adds a rule to a catalog that is held in place, unless its key is taken. -/
def enter (r : Rule) : EStateM CatalogError Catalog Unit := do
  if (← get).rules.contains r.key then throw (.duplicateKey r.key)
  modify fun c => ⟨c.rules.insert r.key r⟩

/-- The catalog with a rule added, unless its key is taken. -/
def register (c : Catalog) (r : Rule) : Except CatalogError Catalog :=
  match (enter r).run c with
  | .ok _ c' => .ok c'
  | .error e _ => .error e

/-- The rules in the order of their keys. -/
def toList (c : Catalog) : List Rule := c.rules.values

/-- The rule with the given key. -/
def get? (c : Catalog) (key : String) : Option Rule := c.rules.get? key

/-- The number of rules. -/
def size (c : Catalog) : Nat := c.rules.size

/-- Whether a rule comes before another or beside it: the greater severity first. -/
def severityOrder (a b : Rule) : Bool := b.severity ≤ a.severity

/-- The rules for a kind, the greatest severity first. Sorting is stable, so rules of one severity
stay in the order of their keys. -/
def rulesFor (c : Catalog) (kind : ResourceKind) : List Rule :=
  (c.toList.filter (·.applies kind)).mergeSort severityOrder

/-- The keys of a catalog as a text for inspection. -/
def summaryText (c : Catalog) : String :=
  "RuleCatalog \x7b rules: " ++ Text.Quoted.encodeList c.rules.keys ++ " \x7d"

@[simp] theorem toList_empty : (∅ : Catalog).toList = [] := rfl

/-- A rule whose key is taken is refused, and the catalog is kept. -/
theorem run_enter (r : Rule) (c : Catalog) :
    (enter r).run c =
      if c.rules.contains r.key then .error (.duplicateKey r.key) c
      else .ok () ⟨c.rules.insert r.key r⟩ := by
  by_cases h : c.rules.contains r.key = true <;> simp [enter, h]

end Catalog

end StackAudit
