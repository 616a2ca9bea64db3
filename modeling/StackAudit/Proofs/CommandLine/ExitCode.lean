import StackAudit.CommandLine.Run
import StackAudit.Proofs.Check.Run
import StackAudit.Proofs.Graph
import StackAudit.Proofs.Policy

/-!
# The exit code of a check

A check exits with 0 only when everything was judged and nothing reached the threshold. Whatever was
left out, from the configuration to a single stack and to the workers for it, makes it exit with 1.
-/
namespace StackAudit

/-- The threshold of the command line changes nothing but the threshold of the policy. -/
theorem Policy.ofFile_failOn {text : String} {profile failOn failOn' : Option String}
    {workers : Option Nat} {p p' : Policy}
    (h : Policy.ofFile text ⟨profile, failOn, workers⟩ = .ok p)
    (h' : Policy.ofFile text ⟨profile, failOn', workers⟩ = .ok p') :
    p' = { p with failOn := p'.failOn } := by
  unfold Policy.ofFile at h h'
  cases hc : Config.ofFile? text with
  | none => simp [hc] at h
  | some c =>
    simp only [hc, mapError_eq_ok_iff, Policy.resolve, bind_eq_ok_iff, pure_eq_ok_iff] at h h'
    obtain ⟨_, -, workers, hw, unknown, hu, rules, hr, rfl⟩ := h
    obtain ⟨_, -, workers', hw', unknown', hu', rules', hr', rfl⟩ := h'
    obtain rfl : workers = workers' := Except.ok.inj (hw.symm.trans hw')
    obtain rfl : unknown = unknown' := Except.ok.inj (hu.symm.trans hu')
    obtain rfl : rules = rules' := Except.ok.inj (hr.symm.trans hr')
    rfl

theorem GateStatus.exitCode_injective : Function.Injective GateStatus.exitCode := by
  intro a b h
  cases a <;> cases b <;> first | rfl | cases h

namespace Invocation

variable {w : Surroundings} {i : Invocation} {o : CheckOptions}

/-- The configuration can be read, and under the options it resolves to this policy. -/
def Resolves (w : Surroundings) (i : Invocation) (o : CheckOptions) (p : Policy) : Prop :=
  ∃ text, i.config.read w = .ok text ∧
    Policy.ofFile text ⟨i.profile, o.failOn, o.workers⟩ = .ok p

/-- The invocation resolves to this policy, and under it all stacks get workers and these
reports. -/
def Judges (w : Surroundings) (i : Invocation) (o : CheckOptions) (p : Policy)
    (reports : List Report) : Prop :=
  i.Resolves w o p ∧ w.disk.Judged w.services.pools o.stack p reports

theorem Resolves.unique {p p' : Policy} (h : i.Resolves w o p) (h' : i.Resolves w o p') :
    p = p' := by
  obtain ⟨text, hread, hp⟩ := h
  obtain ⟨text', hread', hp'⟩ := h'
  obtain rfl : text = text' := Except.ok.inj (hread.symm.trans hread')
  exact Except.ok.inj (hp.symm.trans hp')

theorem runCheck_eq_ok_iff {root : String} {overrides : Overrides} {k : Checked} :
    i.runCheck w root overrides = .ok k ↔
      ∃ text, i.config.read w = .ok text ∧
        StackAudit.check w.disk ⟨root, text, overrides, none, w.services.pools⟩ w.startedAt
          w.finishedAt = .ok k := by
  simp only [runCheck, bind_eq_ok_iff, mapError_eq_ok_iff]

theorem run_of_checked_ok (hi : i.command = .check o) {result : RunResult}
    (h : i.checked w o = .ok result) : i.run w = result := by
  rw [run, hi]
  simp only [h]

theorem run_of_checked_error (hi : i.command = .check o) {e : RunError}
    (h : i.checked w o = .error e) :
    i.run w = { RunResult.ofError e with written := failureFiles w o e } := by
  rw [run, hi]
  simp only [h]

/-- Only a report can make a check exit with another code than 1. -/
theorem exists_runCheck_of_code_ne_one (hi : i.command = .check o) (h : (i.run w).code ≠ 1) :
    ∃ k, i.runCheck w o.stack ⟨i.profile, o.failOn, o.workers⟩ = .ok k ∧
      (i.run w).code = k.report.gate.status.exitCode := by
  cases hchecked : i.checked w o with
  | error e =>
    rw [run_of_checked_error hi hchecked] at h
    exact absurd rfl h
  | ok result =>
    rw [run_of_checked_ok hi hchecked]
    rw [checked, bind_eq_ok_iff] at hchecked
    obtain ⟨k, hk, hresult⟩ := hchecked
    refine ⟨k, hk, ?_⟩
    cases hout : o.reportOut with
    | none =>
      rw [hout] at hresult
      exact congrArg RunResult.code (Except.ok.inj hresult).symm
    | some path =>
      rw [hout] at hresult
      obtain ⟨written, -, hresult⟩ := bind_eq_ok_iff.1 hresult
      exact congrArg RunResult.code (Except.ok.inj hresult).symm

/-- Where a check gives a report whose gate is no error, all stacks were judged. -/
theorem judges_of_runCheck {k : Checked}
    (hk : i.runCheck w o.stack ⟨i.profile, o.failOn, o.workers⟩ = .ok k)
    (hgate : k.report.gate.status ≠ .error) :
    ∃ reports, i.Judges w o k.policy reports ∧
      k.report.gate.status = .ofVerdicts k.policy.failOn (allVerdicts reports) := by
  obtain ⟨text, hread, hcheck⟩ := runCheck_eq_ok_iff.1 hk
  obtain ⟨hp, reports, hjudged, hstatus⟩ := judged_of_check rfl hcheck hgate
  exact ⟨reports, ⟨⟨text, hread, hp⟩, hjudged⟩, hstatus⟩

/-- Over the same stacks, and under a policy that differs only in a higher threshold, a run that
passed does not fail. -/
theorem code_ne_two_of_raised {i' : Invocation} {o' : CheckOptions} {p p' : Policy}
    (hi : i.command = .check o) (hi' : i'.command = .check o') (hstack : o'.stack = o.stack)
    (hp : i.Resolves w o p) (hp' : i'.Resolves w o' p')
    (hpolicy : p' = { p with failOn := p'.failOn }) (hle : p.failOn ≤ p'.failOn)
    (hcount : ∀ p reports, i.Judges w o p reports → (allVerdicts reports).length < UInt32.size)
    (hcode : (i.run w).code = 0) : (i'.run w).code ≠ 2 := by
  intro hcode'
  obtain ⟨k, hk, hexit⟩ := exists_runCheck_of_code_ne_one (w := w) hi (by omega)
  obtain ⟨k', hk', hexit'⟩ := exists_runCheck_of_code_ne_one (w := w) hi' (by omega)
  have hpass : k.report.gate.status = .pass :=
    GateStatus.exitCode_injective (hexit.symm.trans hcode)
  have hfail : k'.report.gate.status = .fail :=
    GateStatus.exitCode_injective (hexit'.symm.trans hcode')
  obtain ⟨reports, hjudges, hstatus⟩ := judges_of_runCheck hk (by rw [hpass]; decide)
  obtain ⟨reports', hjudges', hstatus'⟩ := judges_of_runCheck hk' (by rw [hfail]; decide)
  obtain rfl : k.policy = p := hjudges.1.unique hp
  obtain rfl : k'.policy = p' := hjudges'.1.unique hp'
  -- The second run judges the same stacks by the same rules, so it gets the same reports.
  have hjudged : w.disk.Judged w.services.pools o.stack k.policy reports' := by
    have h := hjudges'.2
    rw [hpolicy, hstack] at h
    exact h.of_failOn
  obtain rfl : reports = reports' := hjudges.2.unique hjudged
  have hreached : Reached k'.policy.failOn reports :=
    reached_of_ofVerdicts (hstatus'.symm.trans hfail)
  have hfails := ofVerdicts_of_reached (hcount _ _ hjudges) (hreached.of_le hle)
  rw [hpass, hfails] at hstatus
  cases hstatus

/-- A higher threshold on the command line does not make a run fail that passed. -/
theorem code_ne_two_of_raised_option {failOn : Option String} {p p' : Policy}
    (hi : i.command = .check o) (hp : i.Resolves w o p)
    (hp' : i.Resolves w { o with failOn := failOn } p') (hle : p.failOn ≤ p'.failOn)
    (hcount : ∀ p reports, i.Judges w o p reports → (allVerdicts reports).length < UInt32.size)
    (hcode : (i.run w).code = 0) :
    (run w { i with command := .check { o with failOn := failOn } }).code ≠ 2 := by
  have hpolicy : p' = { p with failOn := p'.failOn } := by
    obtain ⟨text, hread, h⟩ := hp
    obtain ⟨text', hread', h'⟩ := hp'
    obtain rfl : text = text' := Except.ok.inj (hread.symm.trans hread')
    exact Policy.ofFile_failOn h h'
  exact code_ne_two_of_raised hi rfl rfl hp hp' hpolicy hle hcount hcode

end Invocation

end StackAudit
