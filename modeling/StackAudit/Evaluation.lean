import StackAudit.Catalog
import StackAudit.Fingerprint
import StackAudit.Guidance
import StackAudit.Report

/-!
# Evaluation

Every resource of a graph is judged by the rules of a catalog that apply to its kind. A rule that
fails on a resource gives a violation there and harms nothing else. A run may be stopped by a flag
that only ever goes up; a stopped run gives no report. Nor does a run that asks for a number of
workers of its own and does not get them.
-/
namespace StackAudit

/-- Why there is no report. -/
inductive EvaluationError where
  | cancelled
  /-- The system refused a pool of workers. -/
  | pool (cause : String)
deriving DecidableEq

/-- The text of an error, with its cause. -/
def EvaluationError.message : EvaluationError → String
  | .cancelled => "evaluation cancelled"
  | .pool cause => "failed to build evaluation worker pool: " ++ cause

/-- Asks the system for a pool of workers. The system may refuse one for reasons of its own, and
then tells them. -/
abbrev PoolBuilder := (workers : Nat) → Except String Unit

namespace PoolBuilder

/-- A system that refuses no pool. -/
def ample : PoolBuilder := fun _ => .ok ()

/-- Gets the workers of a run. Without a number it makes do with those that are there. -/
def supply (build : PoolBuilder) : (workers : Option Nat) → Except EvaluationError Unit
  | none => .ok ()
  | some n => (build n).mapError .pool

/-- The system gives the workers that are asked for, if any are. -/
def Grants (build : PoolBuilder) (workers : Option Nat) : Prop :=
  ∀ n, workers = some n → build n = .ok ()

theorem grants_none (build : PoolBuilder) : build.Grants none := by
  intro n h
  cases h

theorem grants_ample (workers : Option Nat) : ample.Grants workers := fun _ _ => rfl

theorem supply_eq_ok_iff {build : PoolBuilder} {workers : Option Nat} :
    build.supply workers = .ok () ↔ build.Grants workers := by
  cases workers with
  | none => exact ⟨fun _ => build.grants_none, fun _ => rfl⟩
  | some n =>
    constructor
    · intro h m hm
      obtain rfl : n = m := Option.some.inj hm
      cases hbuilt : build n with
      | error cause =>
        rw [supply, hbuilt] at h
        cases h
      | ok _ => rfl
    · intro h
      rw [supply, h n rfl]
      rfl

end PoolBuilder

namespace Evaluation

/-- Runs a rule; a fault is a violation that tells what went wrong. -/
def ofRule (r : Rule) (s : Resource) (g : Graph) : Evaluation :=
  match r.judge s g with
  | .ok e => e
  | .error f => .violation ("rule evaluation error: " ++ f.message)

end Evaluation

namespace Verdict

/-- The verdict of a rule on a resource. Only a violation carries help and a fingerprint. -/
def ofRule (g : Graph) (s : Resource) (r : Rule) : Verdict :=
  let e := Evaluation.ofRule r s g
  let broken := e.outcome = .violation
  { resourceId := s.id
    resourceKind := s.kind.name
    ruleKey := r.key
    severity := r.severity
    outcome := e.outcome
    message := e.message
    location := s.location
    help := if broken then Guidance.hint? r.key else none
    fingerprint := if broken then some (Fingerprint.of r.key s.kind.name s.id) else none }

end Verdict

/-- The verdicts on one resource, in the order of the rules. -/
def verdictsOn (g : Graph) (c : Catalog) (s : Resource) : List Verdict :=
  (c.rulesFor s.kind).map (Verdict.ofRule g s)

/-- The report on a graph: the verdicts on its resources in declared order. -/
def evaluate (g : Graph) (c : Catalog) : Report :=
  Report.ofVerdicts (g.resources.flatMap (verdictsOn g c)) g.size

@[simp] theorem verdicts_evaluate (g : Graph) (c : Catalog) :
    (evaluate g c).verdicts = g.resources.flatMap (verdictsOn g c) := rfl

theorem mem_verdicts_evaluate_iff {g : Graph} {c : Catalog} {v : Verdict} :
    v ∈ (evaluate g c).verdicts ↔
      ∃ s ∈ g.resources, ∃ r ∈ c.rulesFor s.kind, Verdict.ofRule g s r = v := by
  simp only [verdicts_evaluate, List.mem_flatMap, verdictsOn, List.mem_map]

/-- How far a run has come: whether the flag is up, and for each resource its verdicts, or nothing
if it was skipped. -/
structure Progress where
  stopped : Bool
  slots : List (Option (List Verdict))

/-- Handles one resource. It is skipped once the flag is up; a rule may raise the flag. -/
def Progress.visit (g : Graph) (c : Catalog) (p : Progress) (s : Resource) : Progress :=
  if p.stopped then { p with slots := p.slots ++ [none] }
  else
    { stopped := (c.rulesFor s.kind).any (·.stops s)
      slots := p.slots ++ [some (verdictsOn g c s)] }

/-- The report of a run that handled all resources, or none if the flag is up at its end. -/
def Progress.result (g : Graph) (p : Progress) : Except EvaluationError Report :=
  if p.stopped then .error .cancelled
  else .ok (Report.ofVerdicts (p.slots.flatMap (·.getD [])) g.size)

/-- The report on a graph under a flag, if there is one; `some true` is a flag that is already up. -/
def evaluateUnder (g : Graph) (c : Catalog) : (flag : Option Bool) → Except EvaluationError Report
  | none => .ok (evaluate g c)
  | some up => (g.resources.foldl (Progress.visit g c) ⟨up, []⟩).result g

/-- The report on a graph by a number of workers, or by those that are there. The workers are asked
for before the flag is read. -/
def evaluateWith (g : Graph) (c : Catalog) (flag : Option Bool) (workers : Option Nat := none)
    (build : PoolBuilder := .ample) : Except EvaluationError Report := do
  build.supply workers
  evaluateUnder g c flag

/-- There is a report when the workers are given and the flag stays down. -/
theorem evaluateWith_eq_ok_iff {g : Graph} {c : Catalog} {flag : Option Bool}
    {workers : Option Nat} {build : PoolBuilder} {r : Report} :
    evaluateWith g c flag workers build = .ok r ↔
      build.Grants workers ∧ evaluateUnder g c flag = .ok r := by
  rw [evaluateWith, ← PoolBuilder.supply_eq_ok_iff]
  cases build.supply workers <;> simp [bind, Except.bind]

/-- How many workers there are makes no difference. -/
theorem evaluateWith_of_grants (g : Graph) (c : Catalog) (flag : Option Bool)
    {workers : Option Nat} {build : PoolBuilder} (h : build.Grants workers) :
    evaluateWith g c flag workers build = evaluateUnder g c flag := by
  rw [evaluateWith, PoolBuilder.supply_eq_ok_iff.2 h]
  rfl

end StackAudit
