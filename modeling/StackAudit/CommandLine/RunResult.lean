import StackAudit.FileTree.Disk

/-!
# Results of runs

All that a run shows: its exit code, what it prints, and the files that it writes.
-/
namespace StackAudit

/-- What a run leaves. -/
structure RunResult where
  code : Nat
  stdout : String := ""
  stderr : String := ""
  /-- The files written, by path. -/
  written : List (String × String) := []
deriving DecidableEq

namespace RunResult

/-- A disk after the writing of the files. -/
def leave (o : RunResult) (d : Disk) : Disk :=
  o.written.foldl (fun d (path, text) => (d.writeText path text).toOption.getD d) d

end RunResult

end StackAudit
