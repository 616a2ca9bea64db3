import StackAudit.Text.Pieces

/-!
# Trees of files

Directories with named entries, and files with their octets. A name is a text, or octets that are
none.
-/
namespace StackAudit

/-- The name of an entry of a directory. -/
inductive FileName where
  | text (s : String)
  /-- Octets that are no Unicode text. -/
  | octets (bs : List UInt8)
deriving DecidableEq

namespace FileName

/-- The name that consists of the given octets. -/
def ofOctets (bs : List UInt8) : FileName :=
  match String.fromUTF8? ⟨bs.toArray⟩ with
  | some s => .text s
  | none => .octets bs

/-- What follows the last point of a name, unless nothing is before it. -/
def extensionOf? (name : String) : Option String :=
  (Text.splitLast '.' name).bind fun (stem, ext) => if stem = "" then none else some ext

/-- The same for octets; what is no text is no extension. -/
def extensionOfOctets? (bs : List UInt8) : Option String :=
  let rev := bs.reverse
  let ext := (rev.takeWhile (· ≠ 46)).reverse
  if (rev.dropWhile (· ≠ 46)).length ≤ 1 then none else String.fromUTF8? ⟨ext.toArray⟩

def extension? : FileName → Option String
  | .text s => extensionOf? s
  | .octets bs => extensionOfOctets? bs

end FileName

/-- A file or a directory. -/
inductive FileTree where
  | file (content : ByteArray)
  | dir (entries : List (FileName × FileTree))

namespace FileTree

def empty : FileTree := .dir []

instance : Inhabited FileTree := ⟨empty⟩

/-- The entries of a directory. -/
def entries? : FileTree → Option (List (FileName × FileTree))
  | .file _ => none
  | .dir entries => some entries

def isFile : FileTree → Bool
  | .file _ => true
  | .dir _ => false

def isDir : FileTree → Bool
  | .file _ => false
  | .dir _ => true

/-- The entry of a directory with the given name. -/
def entry? (t : FileTree) (n : FileName) : Option FileTree := t.entries?.bind (·.lookup n)

/-- What stands at the end of a list of names. -/
def get? (t : FileTree) (names : List FileName) : Option FileTree := names.foldlM entry? t

/-- Writes an entry in the place of the one with its name, or at the end. -/
def setEntry (n : FileName) (t : FileTree) :
    List (FileName × FileTree) → List (FileName × FileTree)
  | [] => [(n, t)]
  | e :: r => if e.1 = n then (n, t) :: r else e :: setEntry n t r

/-- Puts a tree at the end of a list of names; directories that are missing are made, and a file on
the way gives way to one. -/
def set (t : FileTree) (new : FileTree) : List FileName → FileTree
  | [] => new
  | n :: r =>
    let sub := (t.entry? n).getD empty
    .dir (setEntry n (set sub new r) (t.entries?.getD []))

end FileTree

end StackAudit
