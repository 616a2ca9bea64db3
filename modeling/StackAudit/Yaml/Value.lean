import StackAudit.Yaml.Core
import StackAudit.Yaml.Layout
import StackAudit.Yaml.Stream

/-!
# YAML documents as values

Aliases are replaced by what their anchors stand for. An alias that leads into itself is too deep,
and a document may not have far more aliases, counted wherever they occur, than nodes. Keys of
mappings are the texts of scalars; a key that is written twice keeps its first place and its last
value.
-/
namespace StackAudit.Yaml

namespace Node

/-- The own anchor of a node. -/
def own (n : Node) : Option Nat → List (Nat × Node)
  | none => []
  | some a => [(a, n)]

mutual

/-- The nodes with anchors, in order of where they start. -/
def anchored : Node → List (Nat × Node)
  | .alias _ => []
  | .scalar a tag text plain => own (.scalar a tag text plain) a
  | .seq a tag items => own (.seq a tag items) a ++ anchoredItems items
  | .map a tag entries => own (.map a tag entries) a ++ anchoredEntries entries

def anchoredItems : List Node → List (Nat × Node)
  | [] => []
  | n :: r => anchored n ++ anchoredItems r

def anchoredEntries : List (Node × Node) → List (Nat × Node)
  | [] => []
  | (k, v) :: r => anchored k ++ anchored v ++ anchoredEntries r

end

mutual

/-- How many scalars, aliases, and starts and ends of collections a node has. -/
def size : Node → Nat
  | .seq _ _ items => sizeItems items + 2
  | .map _ _ entries => sizeEntries entries + 2
  | _ => 1

def sizeItems : List Node → Nat
  | [] => 0
  | n :: r => size n + sizeItems r

def sizeEntries : List (Node × Node) → Nat
  | [] => 0
  | (k, v) :: r => size k + size v + sizeEntries r

end

end Node

/-- The nodes that aliases stand for, by their numbers. -/
abbrev Anchors := List (Nat × Node)

/-- An action that replaces aliases, given how many it may still replace. -/
abbrev Expansion := StateT Nat Option

/-- The node that an alias stands for; any other node stands for itself. -/
def follow (anchors : Anchors) : Node → Expansion Node
  | .alias a => do
    let left ← get
    guard (left ≠ 0)
    set (left - 1)
    (anchors.lookup a : Option Node)
  | n => return n

/-- The text of a key. -/
def keyText (anchors : Anchors) (n : Node) : Expansion String := do
  match ← follow anchors n with
  | .scalar _ _ text _ => return text
  | _ => failure

/-- The value of a node in which collections are nested at most `depth` deep. -/
def value (anchors : Anchors) (depth : Nat) (n : Node) : Expansion Json := do
  match ← follow anchors n, depth with
  | .scalar _ tag text plain, _ => (Core.scalar? tag text plain : Option Json)
  | .seq _ tag items, depth + 1 =>
    guard (tag ≠ .custom)
    return .arr (← items.mapM (value anchors depth))
  | .map _ tag entries, depth + 1 =>
    guard (tag ≠ .custom)
    let fields ← entries.mapM fun e => do
      return (← keyText anchors e.1, ← value anchors depth e.2)
    return .obj (Json.dedupFields fields)
  | _, _ => failure

/-- The deepest nesting that is read. -/
def maxDepth : Nat := 128

/-- How many aliases may be replaced for each part of a document. -/
def aliasesPerPart : Nat := 100

/-- The value of a document. Of anchors with one number, the last counts. -/
def documentValue? (n : Node) : Option Json :=
  ((value n.anchored.reverse maxDepth n).run (n.size * aliasesPerPart)).map Prod.fst

/-- Reads the documents of a text. -/
def read? (s : String) : Option (List Json) := do
  let nodes ← documents? (← tokens? s)
  nodes.mapM documentValue?

end StackAudit.Yaml
