import Mathlib.Algebra.GroupWithZero.Nat
import StackAudit.Proofs.Check.Run
import StackAudit.Proofs.Policy
import StackAudit.Proofs.Stack.Discovery

/-!
# Stacks are checked one by one

A check of a directory with many stacks is the same as a check of each of them by itself. The
results differ in the paths only, the gate is the gravest of the gates, and the totals are sums.
-/
namespace StackAudit

/-- The sum of the numbers fits in a word. -/
def SumFits (parts : List UInt32) : Prop := (parts.map UInt32.toNat).sum < UInt32.size

/-- The number is the sum of the others, unless that does not fit in a word. -/
def SumsTo (total : UInt32) (parts : List UInt32) : Prop :=
  SumFits parts → total.toNat = (parts.map UInt32.toNat).sum

theorem sumsTo_sum (l : List UInt32) : SumsTo (SeverityCounts.sum l) l := by
  induction l with
  | nil => exact fun _ => rfl
  | cons n l ih =>
    intro hlt
    have hsum : SeverityCounts.sum (n :: l) = n + SeverityCounts.sum l := rfl
    rw [SumFits] at hlt
    rw [List.map_cons, List.sum_cons] at hlt ⊢
    have hrest := ih (Nat.lt_of_le_of_lt (Nat.le_add_left _ _) hlt)
    rw [hsum, UInt32.toNat_add, hrest]
    exact Nat.mod_eq_of_lt hlt

@[simp] theorem sum_singleton (n : UInt32) : SeverityCounts.sum [n] = n := UInt32.add_zero n

/-- The decision on several decisions: the gravest of them. -/
def GateStatus.gravest (l : List GateStatus) : GateStatus :=
  if .error ∈ l then .error else if .fail ∈ l then .fail else .pass

namespace Disk

variable {d : Disk} {root dir : String} {t : FileTree} {dirs : List String}

/-- A stack is what is found in its own directory. -/
theorem discover_of_isStack (hdir : d.get dir = .ok t) (hstack : t.isStack = true) :
    d.isDir dir = true ∧ d.discover dir = .ok [dir] := by
  cases t with
  | file content => simp [FileTree.isStack, FileTree.entries?] at hstack
  | dir entries =>
    refine ⟨by rw [isDir, hdir]; rfl, ?_⟩
    rw [discover_dir hdir, FileTree.stackPaths_dir, if_pos hstack, List.mergeSort_singleton]
    rfl

/-- In every directory that is found there is a stack. -/
theorem exists_isStack_of_mem_discover (hroot : d.get root = .ok t)
    (hnames : t.WellNamed FileName.IsValid) (hdirs : d.discover root = .ok dirs)
    (hdir : dir ∈ dirs) : ∃ sub, d.get dir = .ok sub ∧ sub.isStack = true := by
  cases t with
  | file content =>
    rw [discover, hroot, ok_bind] at hdirs
    cases hdirs
  | dir entries =>
    obtain rfl := Except.ok.inj ((discover_dir hroot).symm.trans hdirs)
    obtain ⟨path, hpath, rfl⟩ := List.mem_map.1 hdir
    rw [(List.mergeSort_perm _ _).mem_iff] at hpath
    obtain ⟨below, sub, rfl, hget, hstack⟩ := FileTree.exists_of_mem_stackPaths hnames hpath
    exact ⟨sub, get_joinNames hroot (hnames.isEntryName hget) hget, hstack⟩

end Disk

variable {d : Disk} {request : CheckRequest} {p : Policy} {c : Catalog}

/-- The root of a run has a part only in the path of a result. -/
theorem checkStack_root (root dir : String) :
    checkStack d { request with root := root } p c dir =
      (checkStack d request p c dir).map fun r => { r with path := .relativeTo root dir } := by
  unfold checkStack
  cases hload : Stack.load d dir .builtin p.unknownKinds with
  | error e => cases e <;> rfl
  | ok stack =>
    simp only
    cases evaluateWith stack.graph c request.flag p.workers (request.pools dir) <;> rfl

/-- A run of its own on one directory, which gives the result of one stack. -/
structure SingleRun (d : Disk) (request : CheckRequest) (times : String → Timestamp × Timestamp)
    where
  dir : String
  checked : Checked
  result : StackResult
  run : check d { request with root := dir } (times dir).1 (times dir).2 = .ok checked
  results_eq : checked.report.results = [result]

namespace SingleRun

variable {times : String → Timestamp × Timestamp}

/-- The result as a run on a directory above gives it. -/
def resultBelow (run : SingleRun d request times) : StackResult :=
  { run.result with path := .relativeTo request.root run.dir }

/-- The report of the run. -/
def report (run : SingleRun d request times) : CheckReport := run.checked.report

end SingleRun

theorem path_of_checkStack {dir : String} {r : StackResult}
    (hr : checkStack d request p c dir = .ok r) : r.path = .relativeTo request.root dir := by
  rcases checkStack_eq_ok_iff.1 hr with ⟨e, -, rfl⟩ | ⟨stack, report, -, -, rfl⟩
  · rfl
  · rfl

/-- The gate does not look at paths, -/
theorem ofResults_path (r : StackResult) (path : StackPath) (failOn : Severity) :
    Gate.ofResults [{ r with path := path }] failOn = Gate.ofResults [r] failOn := rfl

/-- and neither do the totals. -/
theorem totals_path (r : StackResult) (path : StackPath) (profile : String) (failOn : Severity)
    (rules : Nat) : Totals.ofResults [{ r with path := path }] profile failOn rules =
      Totals.ofResults [r] profile failOn rules := rfl

/-- What a check gives when each of its steps succeeds. -/
theorem exists_check {dirs : List String} {results : List StackResult}
    (hp : Policy.ofFile request.configText request.overrides = .ok p)
    (hc : Rules.catalog p = .ok c) (hisDir : d.isDir request.root = true)
    (hdirs : d.discover request.root = .ok dirs)
    (hresults : dirs.mapM (checkStack d request p c) = .ok results)
    (startedAt finishedAt : Timestamp) :
    ∃ k, check d request startedAt finishedAt = .ok k ∧ k.report.results = results ∧
      k.report.gate = Gate.ofResults results p.failOn ∧
      k.report.data = Totals.ofResults results p.profile p.failOn c.size :=
  ⟨_, check_eq_ok_iff.2 ⟨p, c, dirs, results, hp, hc, hisDir, hdirs, hresults, rfl⟩, rfl, rfl, rfl⟩

/-- A run on a stack by itself has the result that a run on a directory above has for it. -/
theorem exists_singleRun {dir : String} {t : FileTree} {r : StackResult}
    (hp : Policy.ofFile request.configText request.overrides = .ok p)
    (hc : Rules.catalog p = .ok c) (hdir : d.get dir = .ok t) (hstack : t.isStack = true)
    (hr : checkStack d request p c dir = .ok r) (times : String → Timestamp × Timestamp) :
    ∃ run : SingleRun d request times, run.dir = dir ∧ run.resultBelow = r ∧
      run.report.gate = Gate.ofResults [r] p.failOn ∧
      run.report.data = Totals.ofResults [r] p.profile p.failOn c.size := by
  obtain ⟨hisDir, hdirs⟩ := Disk.discover_of_isStack hdir hstack
  have hsingle : checkStack d { request with root := dir } p c dir =
      .ok { r with path := .relativeTo dir dir } := by
    rw [checkStack_root, hr]
    rfl
  obtain ⟨k, hrun, hresults, hgate, hdata⟩ := @exists_check d { request with root := dir } p c
    [dir] _ hp hc hisDir hdirs (mapM_eq_ok_iff.2 (.cons hsingle .nil)) (times dir).1 (times dir).2
  rw [ofResults_path] at hgate
  rw [totals_path] at hdata
  refine ⟨⟨dir, k, _, hrun, hresults⟩, rfl, ?_, hgate, hdata⟩
  rw [SingleRun.resultBelow, ← path_of_checkStack hr]

/-- Where stacks can be found, each of them can be checked by itself. -/
theorem exists_singleRuns {root : FileTree} {dirs : List String} {results : List StackResult}
    (hroot : d.get request.root = .ok root) (hnames : root.WellNamed FileName.IsValid)
    (hp : Policy.ofFile request.configText request.overrides = .ok p)
    (hc : Rules.catalog p = .ok c) (hdirs : d.discover request.root = .ok dirs)
    (hresults : dirs.mapM (checkStack d request p c) = .ok results)
    (times : String → Timestamp × Timestamp) :
    ∃ runs : List (SingleRun d request times), runs.map (·.dir) = dirs ∧
      runs.map (·.resultBelow) = results ∧ ∀ run ∈ runs,
        run.report.gate = Gate.ofResults [run.resultBelow] p.failOn ∧
        run.report.data = Totals.ofResults [run.resultBelow] p.profile p.failOn c.size := by
  have hstacks : ∀ dir ∈ dirs, ∃ sub, d.get dir = .ok sub ∧ sub.isStack = true := fun _ hdir =>
    Disk.exists_isStack_of_mem_discover hroot hnames hdirs hdir
  have hpairs := mapM_eq_ok_iff.1 hresults
  clear hdirs hresults
  induction hpairs with
  | nil => exact ⟨[], rfl, rfl, by simp⟩
  | @cons dir r dirs results hr _ ih =>
    obtain ⟨⟨sub, hdir, hstack⟩, hrest⟩ := List.forall_mem_cons.1 hstacks
    obtain ⟨run, rfl, rfl, hrun⟩ := exists_singleRun hp hc hdir hstack hr times
    obtain ⟨runs, rfl, rfl, hruns⟩ := ih hrest
    exact ⟨run :: runs, rfl, rfl, List.forall_mem_cons.2 ⟨hrun, hruns⟩⟩

/-- The findings that count for the gate are summed over the stacks. -/
theorem gating_eq_sum (results : List StackResult) (failOn : Severity) :
    Gate.gating results failOn =
      SeverityCounts.sum (results.map fun r => Gate.gating [r] failOn) := by
  simp [Gate.gating]

/-- The gate over all results is the gravest of the gates over each of them. -/
theorem status_ofResults_eq_gravest {results : List StackResult} {failOn : Severity}
    (hfit : SumFits (results.map fun r => Gate.gating [r] failOn)) :
    (Gate.ofResults results failOn).status =
      .gravest (results.map fun r => (Gate.ofResults [r] failOn).status) := by
  have hone (r : StackResult) :
      (Gate.ofResults [r] failOn).status = .error ↔ r.status = .error := by
    rw [status_ofResults_eq_error_iff]
    simp
  rw [GateStatus.gravest]
  by_cases herror : ∃ s ∈ results, s.status = .error
  · rw [status_ofResults_eq_error_iff.2 herror, if_pos]
    simpa [hone] using herror
  · have hok : ∀ s ∈ results, s.status ≠ .error := fun s hs h => herror ⟨s, hs, h⟩
    have hpos : 0 < Gate.gating results failOn ↔ ∃ r ∈ results, 0 < Gate.gating [r] failOn := by
      rw [gating_eq_sum, UInt32.lt_iff_toNat_lt, sumsTo_sum _ hfit]
      simp only [UInt32.lt_iff_toNat_lt, UInt32.toNat_zero, List.sum_pos_iff_exists_pos_nat]
      simp
    have hfail : .fail ∈ results.map (fun r => (Gate.ofResults [r] failOn).status) ↔
        0 < Gate.gating results failOn := by
      rw [hpos, List.mem_map]
      refine exists_congr fun r => and_congr_right fun hr => ?_
      rw [status_ofResults_of_ne_error (by simpa using hok r hr)]
      split <;> simp_all
    have hnone : .error ∉ results.map fun r => (Gate.ofResults [r] failOn).status := by
      simpa [hone] using hok
    rw [status_ofResults_of_ne_error hok, if_neg hnone]
    simp only [hfail]

/-- Each of the totals is the sum of those of single results. -/
theorem totals_sumsTo (results : List StackResult) (profile : String) (failOn : Severity)
    (rules : Nat) :
    let total := Totals.ofResults results profile failOn rules
    let parts := results.map fun r => Totals.ofResults [r] profile failOn rules
    SumsTo total.stacksEvaluated (parts.map (·.stacksEvaluated)) ∧
      SumsTo total.resourcesEvaluated (parts.map (·.resourcesEvaluated)) ∧
      SumsTo total.violationsTotal (parts.map (·.violationsTotal)) ∧
      SumsTo total.violationsGating (parts.map (·.violationsGating)) := by
  refine ⟨fun hfit => ?_, ?_, ?_, ?_⟩
  · have hparts : (((results.map fun r => Totals.ofResults [r] profile failOn rules).map
        (·.stacksEvaluated)).map UInt32.toNat).sum = results.length := by
      have hone : (Summary.saturate 1).toNat = 1 := rfl
      simp [Totals.ofResults, Function.comp_def, hone]
    rw [SumFits, hparts] at hfit
    rw [hparts]
    exact Summary.toNat_saturate hfit
  · simpa [Totals.ofResults, Function.comp_def] using sumsTo_sum _
  · simpa [Totals.ofResults, Function.comp_def] using sumsTo_sum _
  · rw [Totals.ofResults, gating_eq_sum]
    simpa [Totals.ofResults, Function.comp_def] using sumsTo_sum _

/-- A check gives for each stack that is found, in their order, the result that a check of this
stack by itself gives, up to the path. The gate is the gravest of the gates, and the totals are
sums. -/
theorem check_eq_singleRuns {root : FileTree} {startedAt finishedAt : Timestamp} {k : Checked}
    (hroot : d.get request.root = .ok root) (hnames : root.WellNamed FileName.IsValid)
    (h : check d request startedAt finishedAt = .ok k) (times : String → Timestamp × Timestamp) :
    ∃ runs : List (SingleRun d request times),
      d.discover request.root = .ok (runs.map (·.dir)) ∧
      k.report.results = runs.map (·.resultBelow) ∧
      (SumFits (runs.map (·.report.data.violationsGating)) →
        k.report.gate.status = .gravest (runs.map (·.report.gate.status))) ∧
      SumsTo k.report.data.stacksEvaluated (runs.map (·.report.data.stacksEvaluated)) ∧
      SumsTo k.report.data.resourcesEvaluated (runs.map (·.report.data.resourcesEvaluated)) ∧
      SumsTo k.report.data.violationsTotal (runs.map (·.report.data.violationsTotal)) ∧
      SumsTo k.report.data.violationsGating (runs.map (·.report.data.violationsGating)) := by
  obtain ⟨p, c, dirs, results, hp, hc, -, hdirs, hresults, rfl⟩ := check_eq_ok_iff.1 h
  obtain ⟨runs, rfl, rfl, hruns⟩ := exists_singleRuns hroot hnames hp hc hdirs hresults times
  have hgates : runs.map (·.report.gate.status) =
      (runs.map (·.resultBelow)).map fun r => (Gate.ofResults [r] p.failOn).status := by
    rw [List.map_map]
    exact List.map_congr_left fun run hrun => congrArg Gate.status (hruns run hrun).1
  have hdata : runs.map (·.report.data) =
      (runs.map (·.resultBelow)).map fun r => Totals.ofResults [r] p.profile p.failOn c.size := by
    rw [List.map_map]
    exact List.map_congr_left fun run hrun => (hruns run hrun).2
  obtain ⟨hstacks, hresources, htotal, hgating⟩ :=
    totals_sumsTo (runs.map (·.resultBelow)) p.profile p.failOn c.size
  simp only [← hdata, List.map_map, Function.comp_def] at hstacks hresources htotal hgating
  refine ⟨runs, hdirs, rfl, fun hfit => ?_, hstacks, hresources, htotal, hgating⟩
  rw [hgates, status_ofResults_eq_gravest]
  have hsame := congrArg (List.map Totals.violationsGating) hdata
  rw [List.map_map, List.map_map] at hsame
  exact hsame ▸ hfit

theorem format_main : (FileName.text "main.json").format? = some .json :=
  format?_eq_some_iff.2 ⟨"main", "json", by decide, by decide, rfl⟩

/-- The documents of a stack with one file are those of the file. -/
theorem readDocuments_main {d : Disk} {dir text : String} {content : ByteArray}
    (hdir : d.get dir = .ok (.dir [(.text "main.json", .file content)]))
    (htext : String.fromUTF8? content = some text) :
    Stack.readDocuments d dir =
      (Document.decode ⟨"main.json"⟩ text .json).mapError .malformed := by
  have hpath : StackPath.relativeTo dir (Disk.joinNames dir ["main.json"]) = ⟨"main.json"⟩ := by
    rw [StackPath.relativeTo_joinNames dir (by decide)]
    decide
  have hdocs : (FileTree.dir [(.text "main.json", .file content)]).documents [] =
      [(["main.json"], .json)] := by
    rw [FileTree.documents_dir]
    simp [FileTree.entryDocuments, format_main]
  have hfiles : d.stackFiles dir = .ok [(⟨"main.json"⟩, .json)] := by
    rw [Disk.stackFiles_dir hdir, hdocs, List.map_singleton, hpath, List.mergeSort_singleton]
  have hget : d.get (Disk.joinPath dir "main.json") = .ok (.file content) :=
    Disk.get_joinPath hdir (by decide) rfl
  have hread : d.readText (Disk.joinPath dir "main.json") = .ok text := by
    rw [Disk.readText, hget, ok_bind]
    simp only [htext]
  have hfile : Stack.readFile d dir (⟨"main.json"⟩, .json) =
      (Document.decode ⟨"main.json"⟩ text .json).mapError .malformed := by
    rw [Stack.readFile, hread]
    rfl
  have hfiles' : (d.stackFiles dir).mapError (LoadError.search dir) =
      .ok [(⟨"main.json"⟩, .json)] := by
    rw [hfiles]
    rfl
  rw [Stack.readDocuments, hfiles', ok_bind, List.mapM_cons, hfile]
  cases (Document.decode ⟨"main.json"⟩ text .json).mapError LoadError.malformed with
  | error e => rfl
  | ok docs => simp [ok_bind, pure, Except.pure]

/-- A directory with a stack that is malformed and one that is not. -/
def mixed : List (FileName × FileTree) :=
  [(.text "bad", .dir [(.text "main.json", .file "[".toUTF8)]),
   (.text "good", .dir [(.text "main.json", .file "[]".toUTF8)])]

def mixedDisk : Disk := ⟨.dir [(.text "stacks", .dir mixed)], []⟩

def mixedRequest : CheckRequest := { root := "stacks" }

/-- What is wrong with the stack that is malformed. -/
def mixedFault : Malformed := .badText ⟨⟨"main.json"⟩, 0, none⟩ ⟨.json, Document.readerMessage⟩

theorem get_mixedDisk : mixedDisk.get "stacks" = .ok (.dir mixed) := rfl

theorem wellNamed_mixed : (FileTree.dir mixed).WellNamed FileName.IsValid := by
  have hstack (content : ByteArray) :
      (FileTree.dir [(.text "main.json", .file content)]).WellNamed FileName.IsText := by
    refine .dir (by simp) ?_ (by simp [FileTree.WellNamed.file])
    have hname : FileName.IsText (.text "main.json") := by decide
    simpa using hname
  have hroot : (FileTree.dir mixed).WellNamed FileName.IsText :=
    .dir (by decide) (by decide) (by simp [mixed, hstack])
  exact hroot.mono fun _ => FileName.IsText.isValid

theorem discover_mixedDisk : mixedDisk.discover "stacks" = .ok ["stacks/bad", "stacks/good"] := by
  have hpaths : (FileTree.dir mixed).stackPaths [] = [["bad"], ["good"]] := by
    decide +kernel
  rw [Disk.discover_dir get_mixedDisk, hpaths, List.mergeSort_of_pairwise (by decide)]
  rfl

theorem exists_check_mixed (startedAt finishedAt : Timestamp) :
    ∃ k, check mixedDisk mixedRequest startedAt finishedAt = .ok k ∧
      k.report.results.map (·.status) = [.error, .compliant] := by
  obtain ⟨c, hc⟩ := Rules.exists_catalog_bare .strict
  have hp : Policy.ofFile mixedRequest.configText mixedRequest.overrides = .ok .strict := rfl
  have hdir : mixedDisk.isDir mixedRequest.root = true := rfl
  have hbad : checkStack mixedDisk mixedRequest .strict c "stacks/bad" =
      .ok (.ofMalformed "bad" ⟨"bad"⟩ mixedFault) := by
    have hload : Stack.load mixedDisk "stacks/bad" .builtin Policy.strict.unknownKinds =
        .error (.malformed mixedFault) := by
      rw [Stack.load, @readDocuments_main _ _ "[" _ rfl (by decide +kernel)]
      rfl
    exact checkStack_eq_ok_iff.2 (.inl ⟨_, hload, rfl⟩)
  have hgood : checkStack mixedDisk mixedRequest .strict c "stacks/good" =
      .ok (.ofReport "good" ⟨"good"⟩ (evaluate .empty c)) := by
    have hload : Stack.load mixedDisk "stacks/good" .builtin Policy.strict.unknownKinds =
        .ok ⟨"good", "stacks/good", .empty⟩ := by
      rw [Stack.load, @readDocuments_main _ _ "[]" _ rfl (by decide +kernel)]
      rfl
    exact checkStack_of_load rfl hload (PoolBuilder.grants_none _)
  obtain ⟨k, hk, hresults, -⟩ := @exists_check mixedDisk mixedRequest .strict c _ _ hp hc hdir
    discover_mixedDisk (mapM_eq_ok_iff.2 (.cons hbad (.cons hgood .nil))) startedAt finishedAt
  exact ⟨k, hk, by rw [hresults]; rfl⟩

theorem check_eq_singleRuns_mixed :
    mixedDisk.get "stacks" = .ok (.dir mixed) ∧ (FileTree.dir mixed).WellNamed FileName.IsValid ∧
      ∃ k, check mixedDisk mixedRequest .epoch .epoch = .ok k ∧
        k.report.results.map (·.status) = [.error, .compliant] ∧
        ∃ runs : List (SingleRun mixedDisk mixedRequest fun _ => (.epoch, .epoch)),
          runs.map (·.dir) = ["stacks/bad", "stacks/good"] ∧
            k.report.results = runs.map (·.resultBelow) := by
  obtain ⟨k, hk, hstatus⟩ := exists_check_mixed .epoch .epoch
  obtain ⟨runs, hdirs, hresults, -⟩ :=
    @check_eq_singleRuns mixedDisk mixedRequest _ _ _ _ get_mixedDisk wellNamed_mixed hk
      fun _ => (.epoch, .epoch)
  have hfound := discover_mixedDisk.symm.trans hdirs
  exact ⟨get_mixedDisk, wellNamed_mixed, k, hk, hstatus, runs, (Except.ok.inj hfound).symm,
    hresults⟩

end StackAudit
