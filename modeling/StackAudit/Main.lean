import StackAudit.CommandLine.Run
import Std.Time.DateTime.Timestamp

/-!
# The program

The files of the stacks are named on standard input, one path a line; a path that ends in a slash is
a directory. The configuration and a report to render are found by their own names.
-/
namespace StackAudit

/-- The files that a command reads besides those of stacks. -/
def Invocation.singleFiles (i : Invocation) : List String :=
  (match i.config with
    | .default => [ConfigSource.defaultPath]
    | .file path => [path]
    | .remote _ => []) ++
  match i.command with
  | .markdown report _ => [report]
  | .annotations report _ => [report]
  | _ => []

/-- Whether a command reads stacks. -/
def Invocation.readsStacks (i : Invocation) : Bool :=
  match i.command with
  | .check _ => true
  | .fixtures _ => true
  | _ => false

/-- Puts a file on a disk, or an empty directory if there is no content. -/
def Disk.add (d : Disk) (path : String) (content : Option ByteArray) : Disk :=
  match content with
  | some content => (d.write path content).toOption.getD d
  | none =>
    match Disk.makeDirs d.top (d.start path) (Text.pieces '/' path) with
    | .ok (top, _) => { d with top := top }
    | .error _ => d

/-- The clock. -/
def readClock : IO Timestamp := do
  let t ← Std.Time.Timestamp.now
  return (Timestamp.ofEpoch? t.toSecondsSinceUnixEpoch.val.toNat t.val.nano.val.toNat).getD .epoch

/-- The paths on standard input. -/
def readPaths : IO (List String) := do
  let text ← (← IO.getStdin).readToEnd
  return (Text.pieces '\n' text).filter (· ≠ "")

/-- A disk with the files of the given paths, as far as they can be read. -/
def readFiles (paths : List String) : IO Disk :=
  paths.foldlM (fun d path => do
    if Text.endsWith "/" path then return d.add path none
    else
      match ← (IO.FS.readBinFile path).toBaseIO with
      | .ok content => return d.add path (some content)
      | .error _ => return d) Disk.blank

/-- Writes a file and the directories before it. -/
def writeOut (path text : String) : IO Unit := do
  if let some (parent, _) := Text.splitLast '/' path then
    if parent ≠ "" then IO.FS.createDirAll parent
  IO.FS.writeFile path text

/-- Runs the program in the surroundings that its arguments call for. -/
def runProgram (args : List String) : IO RunResult := do
  let startedAt ← readClock
  let paths ← match Invocation.read args with
    | .error _ => pure []
    | .ok i => do
      let found ← if i.readsStacks then readPaths else pure []
      pure (found ++ i.singleFiles)
  let disk ← readFiles paths
  let finishedAt ← readClock
  return runArguments ⟨disk, .offline, startedAt, finishedAt⟩ args

end StackAudit

/-- Runs the program. -/
def main (args : List String) : IO UInt32 := do
  let r ← StackAudit.runProgram args
  for (path, text) in r.written do
    StackAudit.writeOut path text
  IO.print r.stdout
  IO.eprint r.stderr
  return r.code.toUInt32
