import Mathlib.Algebra.BigOperators.Group.Finset.Basic
import Mathlib.Data.Fintype.BigOperators
import StackAudit.WorkerPool

/-!
# No run gets stuck

As long as a resource is not handled some worker can go on, and every step of a worker leaves less
work to do. So a run with at least one worker can always be brought to its end, and no run goes on
without end unless somebody raises the flag over and over again.
-/
namespace StackAudit

open scoped BigOperators

variable {g : Graph} {n : Nat} {c : Catalog}

/-- How many steps a worker has to make until it is idle. -/
def Task.work (c : Catalog) : Task g → Nat
  | .idle => 0
  | .taken i => (c.rulesFor (g.resourceAt i).kind).length + 2
  | .judging _ _ rest => rest.length + 1

/-- How many steps a resource needs that nobody has taken. -/
def Slot.work (c : Catalog) (i : g.Place) : Slot → Nat
  | .waiting => (c.rulesFor (g.resourceAt i).kind).length + 3
  | .held => 0
  | .handled _ => 0

namespace Pool

/-- How many steps the workers have to make at most until all resources are handled. -/
def work (c : Catalog) (p : Pool g n) : Nat :=
  ∑ w, (p.tasks w).work c + ∑ i, (p.slots i).work c i

theorem sum_update {ι β : Type} [Fintype ι] [DecidableEq ι] (size : ι → β → Nat) (f : ι → β)
    (i : ι) (b : β) :
    ∑ j, size j (Function.update f i b j) + size i (f i) = ∑ j, size j (f j) + size i b := by
  have hrest : ∑ j ∈ Finset.univ.erase i, size j (Function.update f i b j) =
      ∑ j ∈ Finset.univ.erase i, size j (f j) := by
    refine Finset.sum_congr rfl fun j hj => ?_
    rw [Function.update_of_ne (Finset.ne_of_mem_erase hj)]
  rw [← Finset.add_sum_erase _ _ (Finset.mem_univ i),
    ← Finset.add_sum_erase _ (fun j => size j (f j)) (Finset.mem_univ i), hrest,
    Function.update_self]
  omega

/-- A worker changes its own task and the slot of one resource, and less work is left of the two.
It leaves a resource that it holds only by handling it. -/
theorem Step.exists_update {p q : Pool g n} {w : Fin n} (h : Step c (some w) p q) :
    ∃ (i : g.Place) (t : Task g) (s : Slot),
      q.tasks = Function.update p.tasks w t ∧ q.slots = Function.update p.slots i s ∧
        (∀ j, (p.tasks w).place? = some j → j = i) ∧ (s = .held → t.place? = some i) ∧
        t.work c + s.work c i < (p.tasks w).work c + (p.slots i).work c i := by
  have hself (i : g.Place) : p.slots = Function.update p.slots i (p.slots i) :=
    (Function.update_eq_self i p.slots).symm
  cases h with
  | take w i hw hi =>
    refine ⟨i, _, _, rfl, rfl, by simp [hw, Task.place?], fun _ => rfl, ?_⟩
    simp [hw, hi, Task.work, Slot.work]
  | skip w i hw hup =>
    refine ⟨i, _, _, rfl, rfl, by simp [hw, Task.place?, eq_comm], by simp, ?_⟩
    simp only [hw, Task.work, Slot.work]
    omega
  | enter w i hw hdown =>
    refine ⟨i, _, _, rfl, hself i, by simp [hw, Task.place?, eq_comm], fun _ => rfl, ?_⟩
    simp [hw, Task.work]
  | judge w i done r rest up hw =>
    refine ⟨i, _, _, rfl, hself i, by simp [hw, Task.place?, eq_comm], fun _ => rfl, ?_⟩
    simp [hw, Task.work]
  | finish w i done hw =>
    refine ⟨i, _, _, rfl, rfl, by simp [hw, Task.place?, eq_comm], by simp, ?_⟩
    simp only [hw, Task.work, Slot.work]
    omega

theorem Step.work_lt {p q : Pool g n} {w : Fin n} (h : Step c (some w) p q) :
    q.work c < p.work c := by
  obtain ⟨i, t, s, htasks, hslots, -, -, hless⟩ := h.exists_update
  -- Each of the two sums changes in one summand.
  have htasks := htasks ▸ sum_update (fun _ => Task.work c) p.tasks w t
  have hslots := hslots ▸ sum_update (Slot.work c) p.slots i s
  unfold work
  omega

/-- Every resource that is held has a worker. -/
def Attended (p : Pool g n) : Prop :=
  ∀ i, p.slots i = .held → ∃ w, (p.tasks w).place? = some i

namespace Attended

variable {p q : Pool g n}

theorem step (h : p.Attended) {actor : Option (Fin n)} (hstep : Step c actor p q) :
    q.Attended := by
  cases actor with
  | none =>
    cases hstep
    exact h
  | some w =>
    obtain ⟨i, t, s, htasks, hslots, hown, hheld, -⟩ := hstep.exists_update
    intro j hj
    rw [hslots] at hj
    rw [htasks]
    by_cases hji : j = i
    · subst hji
      rw [Function.update_self] at hj
      exact ⟨w, by rw [Function.update_self, hheld hj]⟩
    · rw [Function.update_of_ne hji] at hj
      obtain ⟨v, hv⟩ := h j hj
      have hvw : v ≠ w := by
        rintro rfl
        exact hji (hown j hv)
      exact ⟨v, by rw [Function.update_of_ne hvw, hv]⟩

theorem reaches_start {flag : Option Bool} (hreach : Reaches c (start g n flag) p) :
    p.Attended := by
  refine of_reaches (fun hstep hp => Attended.step hp hstep) hreach ?_
  intro i hi
  cases hi

end Attended

theorem exists_step_of_place {p : Pool g n} {w : Fin n} {i : g.Place}
    (h : (p.tasks w).place? = some i) : ∃ q, Step c (some w) p q := by
  match hw : p.tasks w with
  | .idle => simp [hw, Task.place?] at h
  | .taken j =>
    by_cases hup : p.flag = some true
    · exact ⟨_, .skip w j hw hup⟩
    · exact ⟨_, .enter w j hw hup⟩
  | .judging j done [] => exact ⟨_, .finish w j done hw⟩
  | .judging j done (r :: rest) => exact ⟨_, .judge w j done r rest false hw⟩

/-- No run gets stuck: as long as a resource is not handled, some worker can make a step. -/
theorem exists_step {p : Pool g n} {flag : Option Bool} (hn : 0 < n)
    (hreach : Reaches c (start g n flag) p) (hnot : ¬p.Handled) :
    ∃ w q, Step c (some w) p q := by
  obtain ⟨i, hi⟩ := not_forall.1 hnot
  match hslot : p.slots i with
  | .handled vs => exact absurd ⟨vs, hslot⟩ hi
  | .held =>
    -- Somebody holds it and can go on.
    obtain ⟨w, hw⟩ := Attended.reaches_start hreach i hslot
    exact ⟨w, exists_step_of_place hw⟩
  | .waiting =>
    let w : Fin n := ⟨0, hn⟩
    cases hw : (p.tasks w).place? with
    | some j => exact ⟨w, exists_step_of_place hw⟩
    | none =>
      have hidle : p.tasks w = .idle := by
        cases htask : p.tasks w <;> simp [htask, Task.place?] at hw ⊢
      exact ⟨w, _, .take w i hidle hslot⟩

/-- Whatever has happened in a run, its workers can bring it to an end. -/
theorem exists_reaches_handled {p : Pool g n} {flag : Option Bool} (hn : 0 < n)
    (hreach : Reaches c (start g n flag) p) : ∃ q, Reaches c p q ∧ q.Handled := by
  induction hwork : p.work c using Nat.strong_induction_on generalizing p with
  | _ k ih =>
    by_cases hhandled : p.Handled
    · exact ⟨p, .refl, hhandled⟩
    · obtain ⟨w, p', hstep⟩ := exists_step hn hreach hhandled
      obtain ⟨q, hq, hend⟩ := ih _ (hwork ▸ hstep.work_lt) (hreach.tail ⟨_, hstep⟩) rfl
      exact ⟨q, hq.head ⟨_, hstep⟩, hend⟩

end Pool

end StackAudit
