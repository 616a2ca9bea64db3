import Mathlib.Logic.Function.Basic
import Mathlib.Logic.Relation
import StackAudit.Evaluation

/-!
# Worker pools

The resources of a graph are judged by any number of workers side by side. A worker takes a resource
that nobody has taken, reads the flag, and then skips the resource or runs the rules that apply to
it, one after the other. Other workers may go on between any two of these steps, and the flag may go
up at any moment; nothing takes it down. Verdicts are put down at the place of their resource,
whoever found them and whenever.
-/
namespace StackAudit

abbrev Graph.Place (g : Graph) := Fin g.resources.length

def Graph.resourceAt (g : Graph) (i : g.Place) : Resource := g.resources[i]

/-- What a worker is doing. -/
inductive Task (g : Graph) where
  | idle
  /-- It took a resource and has yet to read the flag. -/
  | taken (i : g.Place)
  /-- It runs rules on a resource: the verdicts of those it ran, and the rules still to run. -/
  | judging (i : g.Place) (done : List Verdict) (rest : List Rule)

/-- The place of the resource that a worker has taken. -/
def Task.place? {g : Graph} : Task g → Option g.Place
  | idle => none
  | taken i => some i
  | judging i _ _ => some i

/-- How far a resource has come. -/
inductive Slot where
  | waiting
  | held
  /-- It was judged, or skipped if there are no verdicts. -/
  | handled (verdicts : Option (List Verdict))

def Slot.verdicts? : Slot → Option (List Verdict)
  | waiting => none
  | held => none
  | handled vs => vs

/-- A run by `n` workers at some moment. Without a flag nobody can ask it to stop. -/
structure Pool (g : Graph) (n : Nat) where
  flag : Option Bool
  tasks : Fin n → Task g
  slots : g.Place → Slot

namespace Pool

variable {g : Graph} {n : Nat}

/-- The flag after somebody raised it, if there is one. -/
def raised (flag : Option Bool) : Option Bool := flag.map fun _ => true

/-- The run before anybody did anything. -/
def start (g : Graph) (n : Nat) (flag : Option Bool) : Pool g n where
  flag := flag
  tasks _ := .idle
  slots _ := .waiting

/-- Somebody makes a step: a worker, or for `none` the caller or a rule that raises the flag in the
middle of its judgement. -/
inductive Step (c : Catalog) : Option (Fin n) → Pool g n → Pool g n → Prop
  | take {p : Pool g n} (w : Fin n) (i : g.Place) (hw : p.tasks w = .idle)
      (hi : p.slots i = .waiting) :
      Step c (some w) p
        { p with
          tasks := Function.update p.tasks w (.taken i)
          slots := Function.update p.slots i .held }
  | skip {p : Pool g n} (w : Fin n) (i : g.Place) (hw : p.tasks w = .taken i)
      (hup : p.flag = some true) :
      Step c (some w) p
        { p with
          tasks := Function.update p.tasks w .idle
          slots := Function.update p.slots i (.handled none) }
  | enter {p : Pool g n} (w : Fin n) (i : g.Place) (hw : p.tasks w = .taken i)
      (hdown : p.flag ≠ some true) :
      Step c (some w) p
        { p with
          tasks := Function.update p.tasks w (.judging i [] (c.rulesFor (g.resourceAt i).kind)) }
  /-- The rule that is run may raise the flag. -/
  | judge {p : Pool g n} (w : Fin n) (i : g.Place) (done : List Verdict) (r : Rule)
      (rest : List Rule) (up : Bool) (hw : p.tasks w = .judging i done (r :: rest)) :
      Step c (some w) p
        { p with
          flag := if up then raised p.flag else p.flag
          tasks := Function.update p.tasks w
            (.judging i (done ++ [Verdict.ofRule g (g.resourceAt i) r]) rest) }
  | finish {p : Pool g n} (w : Fin n) (i : g.Place) (done : List Verdict)
      (hw : p.tasks w = .judging i done []) :
      Step c (some w) p
        { p with
          tasks := Function.update p.tasks w .idle
          slots := Function.update p.slots i (.handled (some done)) }
  | raise {p : Pool g n} : Step c none p { p with flag := raised p.flag }

/-- Some steps lead from one moment of a run to another. -/
abbrev Reaches (c : Catalog) : Pool g n → Pool g n → Prop :=
  Relation.ReflTransGen fun p q => ∃ actor, Step c actor p q

/-- What every step keeps, every run keeps. -/
theorem of_reaches {c : Catalog} {P : Pool g n → Prop}
    (hstep : ∀ {actor : Option (Fin n)} {p q : Pool g n}, Step c actor p q → P p → P q)
    {p q : Pool g n} (h : Reaches c p q) (hp : P p) : P q := by
  induction h with
  | refl => exact hp
  | tail _ hlast ih =>
    obtain ⟨actor, hlast⟩ := hlast
    exact hstep hlast ih

def Handled (p : Pool g n) : Prop := ∀ i, ∃ vs, p.slots i = .handled vs

/-- What the run gives if it ends here: the flag is read once more. -/
def result (p : Pool g n) : Except EvaluationError Report :=
  Progress.result g ⟨p.flag = some true, List.ofFn fun i => (p.slots i).verdicts?⟩

end Pool

end StackAudit
