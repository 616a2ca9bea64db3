import StackAudit.Proofs.StackPath.Names
import StackAudit.Rendering.Basic

/-!
# Locations from the root

A stack keeps the way from the root to its directory, and each of its verdicts the way from there to
a file. What is shown joins the two. For a stack in the root directory itself the first way is the
place itself; the other one then stands alone.
-/
namespace StackAudit

open Disk (joinNames)
open StackPath (relativeTo)

/-- The verdicts of a stack are shown in its order, each below the path of the stack. -/
theorem StackResult.getElem?_fromRoot (s : StackResult) (i : Nat) :
    s.fromRoot.verdicts[i]? = s.verdicts[i]?.map fun v =>
      { v with location := v.location.map (Location.below s.path) } :=
  List.getElem?_map

/-- The way to a stack and the way from there to a file join to the way to the file. So in a stack
with the one path, a verdict with the other is shown with the path of the file from the root, and
the number of its document. -/
theorem StackResult.location_fromRoot {root dir file : String} {above below : List String}
    (hdir : dir = joinNames root above) (hfile : file = joinNames dir below)
    (hnames : ∀ s ∈ above ++ below, IsEntryName s)
    (hplain : ∀ s ∈ above ++ below, '\\' ∉ s.toList) :
    (relativeTo root dir).join (relativeTo dir file) = relativeTo root file ∧
      ∀ (s : StackResult) (i : Nat) (v : Verdict) (document : Option UInt32),
        s.path = relativeTo root dir → s.verdicts[i]? = some v →
        v.location = some ⟨relativeTo dir file, document⟩ →
        s.fromRoot.verdicts[i]? =
          some { v with location := some ⟨relativeTo root file, document⟩ } := by
  have hjoin : (relativeTo root dir).join (relativeTo dir file) = relativeTo root file := by
    rw [hfile, hdir]
    exact StackPath.join_relativeTo_joinNames root hnames hplain
  refine ⟨hjoin, fun s i v document hpath hverdict hlocation => ?_⟩
  have hbelow : v.location.map (Location.below s.path) =
      some ⟨relativeTo root file, document⟩ := by
    rw [hlocation, Option.map_some, Location.below, hpath, hjoin]
  rw [s.getElem?_fromRoot, hverdict, Option.map_some, hbelow]

/-- A verdict on a bucket that is declared in the second document of its file. -/
def tagsVerdict : Verdict where
  resourceId := "logs"
  resourceKind := "ObjectStorageBucket"
  ruleKey := "tags"
  severity := .low
  outcome := .pass
  message := "the tags are there"
  location := some ⟨⟨"data/main.yaml"⟩, some 1⟩
  help := none
  fingerprint := none

/-- The result of a stack two directories below the root. -/
def tagsResult : StackResult where
  name := "api"
  path := ⟨"group/api"⟩
  status := .compliant
  summary := (Report.ofVerdicts [tagsVerdict] 1).summary
  error := none
  verdicts := [tagsVerdict]

/-- The directory of the stack. -/
def tagsDir : String := joinNames "/srv/./stacks/" ["group", "api"]

/-- The file that the verdict is about. -/
def tagsFile : String := joinNames tagsDir ["data", "main.yaml"]

theorem StackResult.location_fromRoot_tagsResult :
    (∀ s ∈ ["group", "api"] ++ ["data", "main.yaml"], IsEntryName s) ∧
      (∀ s ∈ ["group", "api"] ++ ["data", "main.yaml"], '\\' ∉ s.toList) ∧
      tagsResult.path = relativeTo "/srv/./stacks/" tagsDir ∧
      tagsVerdict.location = some ⟨relativeTo tagsDir tagsFile, some 1⟩ ∧
      tagsResult.path.join (relativeTo tagsDir tagsFile) = ⟨"group/api/data/main.yaml"⟩ ∧
      tagsResult.fromRoot.verdicts[0]? =
        some { tagsVerdict with location := some ⟨⟨"group/api/data/main.yaml"⟩, some 1⟩ } := by
  have hnames : ∀ s ∈ ["group", "api"] ++ ["data", "main.yaml"], IsEntryName s := by decide
  have hplain : ∀ s ∈ ["group", "api"] ++ ["data", "main.yaml"], '\\' ∉ s.toList := by decide
  have hpath : tagsResult.path = relativeTo "/srv/./stacks/" tagsDir := by
    rw [tagsDir, StackPath.relativeTo_joinNames _ (by decide)]
    decide
  have hlocation : tagsVerdict.location = some ⟨relativeTo tagsDir tagsFile, some 1⟩ := by
    rw [tagsFile, StackPath.relativeTo_joinNames _ (by decide)]
    decide
  have hshown : relativeTo "/srv/./stacks/" tagsFile = ⟨"group/api/data/main.yaml"⟩ := by
    rw [tagsFile, tagsDir, ← Disk.joinNames_append, StackPath.relativeTo_joinNames _ hnames]
    decide
  have hdir : tagsDir = joinNames "/srv/./stacks/" ["group", "api"] := rfl
  have hfile : tagsFile = joinNames tagsDir ["data", "main.yaml"] := rfl
  have hshow := StackResult.location_fromRoot hdir hfile hnames hplain
  rw [hshown, ← hpath] at hshow
  have hverdict := hshow.2 tagsResult 0 tagsVerdict (some 1) rfl rfl hlocation
  exact ⟨hnames, hplain, hpath, hlocation, hshow.1, hverdict⟩

end StackAudit
