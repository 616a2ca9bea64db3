import StackAudit.Check.Run
import StackAudit.Proofs.Except
import StackAudit.Proofs.Report

/-!
# What a check stands for

A check takes its decision from sums of counts and from the states of the stacks. Behind them stands
one report for each stack that is found. The gate passes when all stacks could be judged and none of
the verdicts is a violation that reaches the threshold. Judging takes workers: a stack for which the
system gives none has no report, and then the check has none either.
-/
namespace StackAudit

/-- The stack in a directory loads, the system gives the workers that the policy asks for, and the
rules give this report. -/
def Stack.Judged (d : Disk) (pools : String → PoolBuilder) (p : Policy) (c : Catalog)
    (dir : String) (r : Report) : Prop :=
  ∃ stack, Stack.load d dir .builtin p.unknownKinds = .ok stack ∧
    (pools dir).Grants p.workers ∧ evaluate stack.graph c = r

/-- All stacks at or below a root load and get workers, and under the policy they get these
reports. -/
def Disk.Judged (d : Disk) (pools : String → PoolBuilder) (root : String) (p : Policy)
    (reports : List Report) : Prop :=
  d.isDir root = true ∧ ∃ c dirs, Rules.catalog p = .ok c ∧ d.discover root = .ok dirs ∧
    List.Forall₂ (Stack.Judged d pools p c) dirs reports

/-- Some verdict of the reports is a violation of at least the given severity. -/
def Reached (threshold : Severity) (reports : List Report) : Prop :=
  ∃ r ∈ reports, ∃ v ∈ r.verdicts, v.outcome = .violation ∧ threshold ≤ v.severity

/-- All verdicts of some reports. -/
def allVerdicts (reports : List Report) : List Verdict := reports.flatMap Report.verdicts

theorem reached_iff {threshold : Severity} {reports : List Report} :
    Reached threshold reports ↔ 0 < (allVerdicts reports).countP (Verdict.reaches threshold) := by
  rw [List.countP_pos_iff, allVerdicts]
  simp only [List.mem_flatMap, Verdict.reaches_eq_true_iff, Reached]
  constructor
  · rintro ⟨r, hr, v, hv, hreaches⟩
    exact ⟨v, ⟨r, hr, hv⟩, hreaches⟩
  · rintro ⟨v, ⟨r, hr, hv⟩, hreaches⟩
    exact ⟨r, hr, v, hv, hreaches⟩

theorem Reached.of_le {threshold threshold' : Severity} (hle : threshold ≤ threshold')
    {reports : List Report} (h : Reached threshold' reports) : Reached threshold reports := by
  obtain ⟨r, hr, v, hv, hreaches⟩ := h
  refine ⟨r, hr, v, hv, ?_⟩
  rw [← Verdict.reaches_eq_true_iff] at hreaches ⊢
  exact Verdict.reaches_of_le hle hreaches

section Judging

variable {d : Disk} {pools : String → PoolBuilder} {root : String} {p : Policy} {c : Catalog}

/-- On an unchanged disk a stack has one report. -/
theorem Stack.Judged.unique {dir : String} {r r' : Report} (h : Stack.Judged d pools p c dir r)
    (h' : Stack.Judged d pools p c dir r') : r = r' := by
  obtain ⟨stack, hload, -, rfl⟩ := h
  obtain ⟨stack', hload', -, rfl⟩ := h'
  rw [Except.ok.inj (hload.symm.trans hload')]

theorem Disk.Judged.unique {reports reports' : List Report} (h : d.Judged pools root p reports)
    (h' : d.Judged pools root p reports') : reports = reports' := by
  obtain ⟨-, c, dirs, hc, hdirs, hreports⟩ := h
  obtain ⟨-, c', dirs', hc', hdirs', hreports'⟩ := h'
  obtain rfl : c = c' := Except.ok.inj (hc.symm.trans hc')
  obtain rfl : dirs = dirs' := Except.ok.inj (hdirs.symm.trans hdirs')
  have hunique : Relator.RightUnique (Stack.Judged d pools p c) := fun _ _ _ h h' => h.unique h'
  exact List.right_unique_forall₂' hunique hreports hreports'

/-- The threshold has no part in judging. -/
theorem Disk.Judged.of_failOn {failOn : Severity} {reports : List Report}
    (h : d.Judged pools root { p with failOn := failOn } reports) :
    d.Judged pools root p reports := h

end Judging

/-- What the gate says of verdicts on stacks that could all be judged, by counting them in a
machine word. -/
def GateStatus.ofVerdicts (failOn : Severity) (verdicts : List Verdict) : GateStatus :=
  if 0 < UInt32.ofNat (verdicts.countP (Verdict.reaches failOn)) then .fail else .pass

/-- The gate fails only for a reason: nothing counts up to nothing. -/
theorem reached_of_ofVerdicts {failOn : Severity} {reports : List Report}
    (h : GateStatus.ofVerdicts failOn (allVerdicts reports) = .fail) : Reached failOn reports := by
  rw [reached_iff]
  apply Nat.pos_of_ne_zero
  intro hzero
  rw [GateStatus.ofVerdicts, hzero] at h
  exact absurd h (by decide)

/-- A violation that reaches the threshold is not lost, unless there are more verdicts than a word
can count. -/
theorem ofVerdicts_of_reached {failOn : Severity} {reports : List Report}
    (hcount : (allVerdicts reports).length < UInt32.size) (h : Reached failOn reports) :
    GateStatus.ofVerdicts failOn (allVerdicts reports) = .fail := by
  have hbound : (allVerdicts reports).countP (Verdict.reaches failOn) < UInt32.size :=
    Nat.lt_of_le_of_lt List.countP_le_length hcount
  unfold GateStatus.ofVerdicts
  rw [if_pos]
  rw [UInt32.lt_iff_toNat_lt, UInt32.toNat_ofNat_of_lt' hbound]
  exact reached_iff.1 h

/-- The result of a stack sums up the verdicts of a report. -/
def StackResult.SumsUp (s : StackResult) (r : Report) : Prop :=
  ∃ n, s.summary = Summary.ofVerdicts r.verdicts n

/-- A sum of numbers that count verdicts counts the verdicts of all reports, up to the size of a
word. -/
theorem sum_summary_eq_ofNat {f : Summary → UInt32} {p : Verdict → Bool}
    (hf : ∀ vs n, f (Summary.ofVerdicts vs n) = UInt32.ofNat (vs.countP p))
    {results : List StackResult} {reports : List Report}
    (h : List.Forall₂ StackResult.SumsUp results reports) :
    SeverityCounts.sum (results.map (f ·.summary)) =
      UInt32.ofNat ((allVerdicts reports).countP p) := by
  induction h with
  | nil => rfl
  | @cons s r results reports hs _ ih =>
    obtain ⟨n, hs⟩ := hs
    have hcount : allVerdicts (r :: reports) = r.verdicts ++ allVerdicts reports := rfl
    rw [hcount, List.countP_append, UInt32.ofNat_add, ← ih, ← hf r.verdicts n, ← hs]
    rfl

/-- The gating count of results is that of their verdicts, up to the size of a word. -/
theorem gating_eq_ofNat {results : List StackResult} {reports : List Report}
    (h : List.Forall₂ StackResult.SumsUp results reports) (threshold : Severity) :
    Gate.gating results threshold =
      UInt32.ofNat ((allVerdicts reports).countP (Verdict.reaches threshold)) :=
  sum_summary_eq_ofNat (f := fun s => s.violations.atOrAbove threshold)
    (fun vs n => Summary.atOrAbove_violations_ofVerdicts vs n threshold) h

variable {d : Disk} {request : CheckRequest} {p : Policy} {c : Catalog}

/-- A stack gets a result when it is malformed and when it has a report. -/
theorem checkStack_eq_ok_iff {dir : String} {s : StackResult} :
    checkStack d request p c dir = .ok s ↔
      (∃ e, Stack.load d dir .builtin p.unknownKinds = .error (.malformed e) ∧
        s = .ofMalformed (Stack.nameOf dir) (.relativeTo request.root dir) e) ∨
      ∃ stack r, Stack.load d dir .builtin p.unknownKinds = .ok stack ∧
        evaluateWith stack.graph c request.flag p.workers (request.pools dir) = .ok r ∧
        s = .ofReport stack.name (.relativeTo request.root dir) r := by
  unfold checkStack
  cases hload : Stack.load d dir .builtin p.unknownKinds with
  | error e => cases e <;> simp [eq_comm]
  | ok stack =>
    cases hr : evaluateWith stack.graph c request.flag p.workers (request.pools dir) <;>
      simp [hr, eq_comm]

/-- Without a flag a stack that loads and gets its workers is judged. -/
theorem checkStack_of_load (hflag : request.flag = none) {dir : String} {stack : Stack}
    (hload : Stack.load d dir .builtin p.unknownKinds = .ok stack)
    (hgrants : (request.pools dir).Grants p.workers) :
    checkStack d request p c dir =
      .ok (.ofReport stack.name (.relativeTo request.root dir) (evaluate stack.graph c)) := by
  refine checkStack_eq_ok_iff.2 (.inr ⟨stack, evaluate stack.graph c, hload, ?_, rfl⟩)
  rw [evaluateWith_of_grants stack.graph c request.flag hgrants, hflag]
  rfl

/-- Results without a malformed stack are those of one report for each stack. -/
theorem exists_reports_of_results (hflag : request.flag = none) {dirs : List String}
    {results : List StackResult} (h : dirs.mapM (checkStack d request p c) = .ok results)
    (hok : ∀ s ∈ results, s.status ≠ .error) :
    ∃ reports, List.Forall₂ (Stack.Judged d request.pools p c) dirs reports ∧
      List.Forall₂ StackResult.SumsUp results reports := by
  have hresults := mapM_eq_ok_iff.1 h
  clear h
  induction hresults with
  | nil => exact ⟨[], .nil, .nil⟩
  | @cons dir s dirs results hs _ ih =>
    obtain ⟨hsok, hok⟩ := List.forall_mem_cons.1 hok
    obtain ⟨reports, hjudged, hsummary⟩ := ih hok
    rcases checkStack_eq_ok_iff.1 hs with ⟨e, -, rfl⟩ | ⟨stack, r, hload, hr, rfl⟩
    · exact absurd rfl hsok
    · rw [hflag] at hr
      obtain ⟨hgrants, hr⟩ := evaluateWith_eq_ok_iff.1 hr
      obtain rfl : evaluate stack.graph c = r := Except.ok.inj hr
      exact ⟨evaluate stack.graph c :: reports, .cons ⟨stack, hload, hgrants, rfl⟩ hjudged,
        .cons ⟨_, rfl⟩ hsummary⟩

/-- A check gives a report when each of its steps succeeds. -/
theorem check_eq_ok_iff {startedAt finishedAt : Timestamp} {k : Checked} :
    check d request startedAt finishedAt = .ok k ↔
      ∃ p c dirs results, Policy.ofFile request.configText request.overrides = .ok p ∧
        Rules.catalog p = .ok c ∧ d.isDir request.root = true ∧
        d.discover request.root = .ok dirs ∧
        dirs.mapM (checkStack d request p c) = .ok results ∧
        k = {
          policy := p
          report :=
            { schema := CheckReport.schemaName
              tool := .this
              startedAt := startedAt
              finishedAt := finishedAt
              gate := Gate.ofResults results p.failOn
              results := results
              data := Totals.ofResults results p.profile p.failOn c.size } } := by
  unfold check
  cases hdir : d.isDir request.root with
  | false => simp
  | true => simp [@eq_comm _ k]

/-- The gate takes a malformed stack for an error before it looks at the count. -/
theorem status_ofResults (results : List StackResult) (failOn : Severity) :
    (Gate.ofResults results failOn).status =
      if results.any (·.status = .error) then .error
      else if 0 < Gate.gating results failOn then .fail else .pass := rfl

theorem status_ofResults_eq_error_iff {results : List StackResult} {failOn : Severity} :
    (Gate.ofResults results failOn).status = .error ↔ ∃ s ∈ results, s.status = .error := by
  have hany : results.any (·.status = .error) = true ↔ ∃ s ∈ results, s.status = .error := by
    simp only [List.any_eq_true, decide_eq_true_eq]
  rw [status_ofResults, ← hany]
  by_cases h : results.any (·.status = .error) = true
  · simp only [h, if_true]
  · rw [if_neg h]
    simp only [h]
    split <;> simp

theorem status_ofResults_of_ne_error {results : List StackResult} {failOn : Severity}
    (h : ∀ s ∈ results, s.status ≠ .error) :
    (Gate.ofResults results failOn).status =
      if 0 < Gate.gating results failOn then .fail else .pass := by
  rw [status_ofResults, if_neg (by simpa using h)]

/-- What the gate says of results without a malformed stack. -/
theorem status_ofResults_of_reports {results : List StackResult} {reports : List Report}
    {failOn : Severity} (hok : ∀ s ∈ results, s.status ≠ .error)
    (hsummary : List.Forall₂ StackResult.SumsUp results reports) :
    (Gate.ofResults results failOn).status =
      GateStatus.ofVerdicts failOn (allVerdicts reports) := by
  rw [status_ofResults_of_ne_error hok, gating_eq_ofNat hsummary]
  rfl

/-- A check whose gate is no error has judged all stacks. -/
theorem judged_of_check (hflag : request.flag = none) {startedAt finishedAt : Timestamp}
    {k : Checked} (h : check d request startedAt finishedAt = .ok k)
    (hgate : k.report.gate.status ≠ .error) :
    Policy.ofFile request.configText request.overrides = .ok k.policy ∧
      ∃ reports, d.Judged request.pools request.root k.policy reports ∧
        k.report.gate.status = .ofVerdicts k.policy.failOn (allVerdicts reports) := by
  obtain ⟨p, c, dirs, results, hp, hc, hdir, hdirs, hresults, rfl⟩ := check_eq_ok_iff.1 h
  have hok : ∀ s ∈ results, s.status ≠ .error := by
    intro s hs herror
    exact hgate (status_ofResults_eq_error_iff.2 ⟨s, hs, herror⟩)
  obtain ⟨reports, hjudged, hsummary⟩ := exists_reports_of_results hflag hresults hok
  exact ⟨hp, reports, ⟨hdir, c, dirs, hc, hdirs, hjudged⟩,
    status_ofResults_of_reports hok hsummary⟩

end StackAudit
