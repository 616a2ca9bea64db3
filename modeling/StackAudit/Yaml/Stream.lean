import StackAudit.Yaml.Node

/-!
# Documents of a YAML text

The first document may start without a mark and directives, every other one needs its mark.
-/
namespace StackAudit.Yaml

/-- Reads the directives before a document: the handles in force, and what follows. -/
def readDirectives? (versioned : Bool) (declared : Handles) :
    List Token → Option (Handles × List Token)
  | .version major minor :: r =>
    if versioned || major ≠ 1 || (minor ≠ 1 && minor ≠ 2) then none
    else readDirectives? true declared r
  | .handle name meaning :: r =>
    if declared.contains name then none
    else readDirectives? versioned (declared.insert name meaning) r
  | r => some (declared.complete, r)

/-- Whether the token starts a document. -/
def Token.isHead : Token → Bool
  | .version _ _ => true
  | .handle _ _ => true
  | .documentStart => true
  | _ => false

/-- Reads a node that may go to the end of the tokens. -/
def readNode? (handles : Handles) (ts : List Token) : Option (Node × List Token) := do
  let reading : Reading := { tokens := ts, handles := handles }
  let (n, s) ← (Reader.node true false (4 * ts.length + 4)).run reading
  return (n, s.tokens)

/-- Reads what stands behind the head of a document. -/
def readBody? (handles : Handles) (ts : List Token) : Option (Node × List Token) :=
  match ts with
  | [] => some (.empty, [])
  | t :: _ => if t.isHead || t = .documentEnd then some (.empty, ts) else readNode? handles ts

/-- Reads one document that has a head. -/
def readDocument? (ts : List Token) : Option (Node × List Token) := do
  let (handles, rest) ← readDirectives? false ∅ ts
  match rest with
  | .documentStart :: r => readBody? handles r
  | _ => none

/-- Reads all documents that are left. Each has a mark, so the number of tokens bounds them. -/
def readDocuments? : Nat → List Token → Option (List Node)
  | 0, _ => none
  | fuel + 1, ts =>
    match ts.dropWhile (· = .documentEnd) with
    | [] => some []
    | rest => do
      let (n, rest) ← readDocument? rest
      return n :: (← readDocuments? fuel rest)

/-- The documents of the tokens of a text. -/
def documents? (ts : List Token) : Option (List Node) :=
  match ts with
  | [] => some []
  | t :: _ =>
    if t.isHead then readDocuments? (ts.length + 1) ts
    else do
      let (n, rest) ← readNode? (Handles.complete ∅) ts
      return n :: (← readDocuments? (ts.length + 1) rest)

end StackAudit.Yaml
