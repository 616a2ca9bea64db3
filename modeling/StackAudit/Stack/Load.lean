import StackAudit.Adapters.Builtin
import StackAudit.Assembly
import StackAudit.Document.Decode
import StackAudit.Stack.Discovery

/-!
# Loading stacks

The document files of a stack are read in the order of their paths, and make one graph. A stack can
fail to load because a file cannot be read, or because of what the files say.
-/
namespace StackAudit

/-- Why a stack could not be loaded. -/
inductive LoadError where
  /-- The directory could not be searched. -/
  | search (dir : String) (cause : FileError)
  | read (dir path : String) (cause : FileError)
  | malformed (cause : Malformed)
deriving DecidableEq

def LoadError.message : LoadError → String
  | .search dir e =>
    s!"load stack {dir}: walk {dir}: IO error for operation on {dir}: {e.message}: {e.message}"
  | .read dir path e => s!"load stack {dir}: read {path}: {e.message}"
  | .malformed e => e.message

/-- A stack with its graph. -/
structure Stack where
  name : String
  dir : String
  graph : Graph

namespace Stack

/-- The name of the stack in a directory. -/
def nameOf (dir : String) : String := (StackPath.fileName? dir).getD dir

/-- The documents of one file of a stack. -/
def readFile (d : Disk) (dir : String) (file : StackPath × Format) :
    Except LoadError (List RawDocument) := do
  let path := Disk.joinPath dir file.1.text
  let text ← (d.readText path).mapError (.read dir path)
  (Document.decode file.1 text file.2).mapError .malformed

/-- The documents of all files of a stack. -/
def readDocuments (d : Disk) (dir : String) : Except LoadError (List RawDocument) := do
  let files ← (d.stackFiles dir).mapError (.search dir)
  return (← files.mapM (readFile d dir)).flatten

/-- Loads the stack in a directory. -/
def load (d : Disk) (dir : String) (registry : AdapterRegistry) (unknown : UnknownKinds) :
    Except LoadError Stack := do
  let docs ← readDocuments d dir
  let graph ← (Graph.ofDocuments docs registry unknown).mapError .malformed
  return ⟨nameOf dir, dir, graph⟩

end Stack

end StackAudit
