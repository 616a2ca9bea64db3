import StackAudit.FileTree.Basic

/-!
# Paths to files

A disk is a tree of files with a working directory. A path leads from there, or from the top if it
starts with a slash, step by step to an entry; every step but the last must end at a directory.
-/
namespace StackAudit

/-- Why a path does not lead to what was asked for. -/
inductive FileError where
  | notFound
  | notDirectory
  | isDirectory
  | notText
deriving DecidableEq

def FileError.message : FileError → String
  | .notFound => "No such file or directory (os error 2)"
  | .notDirectory => "Not a directory (os error 20)"
  | .isDirectory => "Is a directory (os error 21)"
  | .notText => "stream did not contain valid UTF-8"

/-- A tree of files with a working directory. -/
structure Disk where
  top : FileTree
  workingDir : List FileName

namespace Disk

/-- A disk with an empty working directory, whose name no path can spell. -/
def blank : Disk := ⟨.dir [(.octets [], .empty)], [.octets []]⟩

/-- Follows the steps of a path from a place, which must exist. An empty step and `.` stay, but only
at a directory. -/
def walk (top : FileTree) (place : List FileName) : List String → Except FileError (List FileName)
  | [] => .ok place
  | step :: rest =>
    match top.get? place with
    | none => .error .notFound
    | some (.file _) => .error .notDirectory
    | some (.dir entries) =>
      if step = "" ∨ step = "." then walk top place rest
      else if step = ".." then walk top place.dropLast rest
      else if (entries.lookup (.text step)).isSome then walk top (place ++ [.text step]) rest
      else .error .notFound

/-- Whether a path starts at the top. -/
def isAbsolute (path : String) : Bool := Text.startsWith "/" path

/-- Where a path starts. -/
def start (d : Disk) (path : String) : List FileName := if isAbsolute path then [] else d.workingDir

/-- The place to which a path leads. -/
def place (d : Disk) (path : String) : Except FileError (List FileName) :=
  if path = "" then .error .notFound else walk d.top (d.start path) (Text.pieces '/' path)

/-- What stands at the end of a path. -/
def get (d : Disk) (path : String) : Except FileError FileTree := do
  match d.top.get? (← d.place path) with
  | none => .error .notFound
  | some t => .ok t

def isFile (d : Disk) (path : String) : Bool := ((d.get path).toOption.map FileTree.isFile).getD false

def isDir (d : Disk) (path : String) : Bool := ((d.get path).toOption.map FileTree.isDir).getD false

/-- The text of the file at the end of a path. -/
def readText (d : Disk) (path : String) : Except FileError String := do
  match ← d.get path with
  | .dir _ => .error .isDirectory
  | .file content => match String.fromUTF8? content with
    | none => .error .notText
    | some s => .ok s

/-- One path below another; one that starts at the top takes its place. -/
def joinPath (p q : String) : String :=
  if isAbsolute q then q
  else if p = "" ∨ Text.endsWith "/" p then p ++ q
  else p ++ "/" ++ q

/-- The path of a directory or file below a path. -/
def joinNames (path : String) (names : List String) : String := names.foldl joinPath path

/-- Follows the steps of a path like `walk`, and makes the directories that are missing. -/
def makeDirs (top : FileTree) (place : List FileName) :
    List String → Except FileError (FileTree × List FileName)
  | [] =>
    if (top.get? place).any FileTree.isDir then .ok (top, place) else .error .notDirectory
  | step :: rest =>
    match top.get? place with
    | none => .error .notFound
    | some (.file _) => .error .notDirectory
    | some (.dir entries) =>
      if step = "" ∨ step = "." then makeDirs top place rest
      else if step = ".." then makeDirs top place.dropLast rest
      else
        let below := place ++ [.text step]
        let top := if (entries.lookup (.text step)).isSome then top else top.set .empty below
        makeDirs top below rest

/-- Writes the file at the end of a path, and makes the directories before it. The last step must name
the file. -/
def write (d : Disk) (path : String) (content : ByteArray) : Except FileError Disk := do
  let steps := Text.pieces '/' path
  let name := steps.getLast?.getD ""
  let (top, place) ← makeDirs d.top (d.start path) steps.dropLast
  let file := place ++ [.text name]
  if name = "" ∨ name = "." ∨ name = ".." then .error .isDirectory
  else if (top.get? file).any FileTree.isDir then .error .isDirectory
  else .ok { d with top := top.set (.file content) file }

/-- Writes a text to the file at the end of a path. -/
def writeText (d : Disk) (path text : String) : Except FileError Disk := d.write path text.toUTF8

end Disk

end StackAudit
