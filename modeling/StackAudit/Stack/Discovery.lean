import StackAudit.Document.Basic
import StackAudit.FileTree.Disk
import StackAudit.StackPath.Relative

/-!
# Finding stacks

A directory that has a document file among its entries is a stack, with all that is below it. So of
nested directories only the topmost is one. Names that are no text lead nowhere, though a file with
such a name still makes its directory a stack.
-/
namespace StackAudit

/-- The format of a file, by its name. -/
def FileName.format? (n : FileName) : Option Format := n.extension?.bind Format.ofExtension?

namespace FileTree

/-- Whether the entry is a document file. -/
def isDocument (e : FileName × FileTree) : Bool := e.2.isFile && e.1.format?.isSome

/-- Whether a directory has a document file among its entries. -/
def isStack (t : FileTree) : Bool := (t.entries?.getD []).any isDocument

mutual

/-- The topmost stacks, as lists of names below the given ones. -/
def stackPaths (names : List String) : FileTree → List (List String)
  | .file _ => []
  | .dir entries =>
    if (FileTree.dir entries).isStack then [names] else stackPathsIn names entries

/-- The topmost stacks in the entries of a directory. -/
def stackPathsIn (names : List String) : List (FileName × FileTree) → List (List String)
  | [] => []
  | (.text s, t) :: r => stackPaths (names ++ [s]) t ++ stackPathsIn names r
  | (.octets _, _) :: r => stackPathsIn names r

end

mutual

/-- The document files below a directory, as lists of names below the given ones. -/
def documents (names : List String) : FileTree → List (List String × Format)
  | .file _ => []
  | .dir entries => documentsIn names entries

/-- The document files in the entries of a directory. -/
def documentsIn (names : List String) :
    List (FileName × FileTree) → List (List String × Format)
  | [] => []
  | (.text s, .file _) :: r =>
    ((FileName.text s).format?.map (names ++ [s], ·)).toList ++ documentsIn names r
  | (.text s, .dir entries) :: r => documentsIn (names ++ [s]) entries ++ documentsIn names r
  | (.octets _, _) :: r => documentsIn names r

end

end FileTree

/-- The order of lists of names: by the first one that differs. -/
def namesLe : List String → List String → Bool
  | [], _ => true
  | _ :: _, [] => false
  | a :: as, b :: bs => if a = b then namesLe as bs else a < b

namespace Disk

/-- The paths of the stacks at or below a directory. -/
def discover (d : Disk) (root : String) : Except FileError (List String) := do
  match ← d.get root with
  | .file _ => .error .notDirectory
  | t => return ((t.stackPaths []).mergeSort namesLe).map (joinNames root)

/-- The document files of a stack, with paths relative to it, in the order of these. -/
def stackFiles (d : Disk) (dir : String) : Except FileError (List (StackPath × Format)) := do
  let found (names : List String) (f : Format) :=
    (StackPath.relativeTo dir (joinNames dir names), f)
  let files ← match ← d.get dir with
    | .file _ =>
      let format := (StackPath.fileName? dir).bind fun n => (FileName.text n).format?
      pure (format.map (found [])).toList
    | t => pure ((t.documents []).map fun (names, f) => found names f)
  return files.mergeSort fun a b => a.1.text ≤ b.1.text

end Disk

end StackAudit
