import StackAudit.StackPath.Basic

/-!
# Components of a path

A path has an optional lead, the root or the current directory, and a body of pieces between
slashes. Pieces that are empty or `.` are void: they name no directory. A directory is stripped from
a path component by component, and what remains is written without void pieces at its ends.
-/
namespace StackAudit.StackPath

/-- What stands before the body of a path. -/
inductive Lead where
  /-- The root directory. -/
  | root
  /-- The current directory. -/
  | current
  /-- Nothing. -/
  | none
deriving DecidableEq

/-- The text of a lead. -/
def Lead.text : Lead → List Char
  | .root => ['/']
  | .current => ['.']
  | .none => []

/-- A path taken apart. -/
structure Parts where
  /-- What stands before the body. -/
  lead : Lead
  /-- All pieces of the body, void ones too. -/
  pieces : List (List Char)
deriving DecidableEq

/-- Takes a path apart. -/
def Parts.ofChars : List Char → Parts
  | '/' :: r => ⟨.root, r.splitOn '/'⟩
  | ['.'] => ⟨.current, [[]]⟩
  | '.' :: '/' :: r => ⟨.current, ('/' :: r).splitOn '/'⟩
  | r => ⟨.none, r.splitOn '/'⟩

/-- Whether a piece names no directory. -/
def isVoid (piece : List Char) : Bool := piece == [] || piece == ['.']

/-- The pieces that name something. -/
def Parts.named (p : Parts) : List (List Char) := p.pieces.filter fun x => !isVoid x

/-- Pieces with slashes between them. -/
def joinPieces (ps : List (List Char)) : List Char := ['/'].intercalate ps

/-- Removes void pieces at the end. -/
def dropVoidEnd (ps : List (List Char)) : List (List Char) :=
  (ps.reverse.dropWhile isVoid).reverse

/-- The pieces behind the given ones, where void pieces do not count. -/
def stripPieces (base : List (List Char)) (ps : List (List Char)) : Option (List (List Char)) :=
  match base with
  | [] => some ps
  | b :: base =>
    match ps.dropWhile isVoid with
    | [] => none
    | p :: ps => if p = b then stripPieces base ps else none

/-- What remains of a path behind a directory, if the path lies in it. -/
def strip? (dir path : List Char) : Option (List Char) :=
  let d := Parts.ofChars dir
  let p := Parts.ofChars path
  if d.lead = .none ∧ d.named = [] then
    some (p.lead.text ++ joinPieces (dropVoidEnd p.pieces))
  else if d.lead = p.lead then
    (stripPieces d.named p.pieces).map fun rest =>
      joinPieces (dropVoidEnd (rest.dropWhile isVoid))
  else none

/-- The path relative to a directory, or the path itself if it lies elsewhere. -/
def relativeTo (dir path : String) : StackPath :=
  ofText (((strip? dir.toList path.toList).map String.ofList).getD path)

/-- The last component of a path, if it names an entry of a directory. -/
def fileName? (path : String) : Option String :=
  match (Parts.ofChars path.toList).named.getLast? with
  | some piece => if piece = ['.', '.'] then none else some (String.ofList piece)
  | none => none

end StackAudit.StackPath
