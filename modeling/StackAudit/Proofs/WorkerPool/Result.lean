import Mathlib.Data.List.OfFn
import StackAudit.Proofs.Graph
import StackAudit.WorkerPool

/-!
# What a pool of workers reports

Whatever the workers do and in whatever order, a run that handled all resources gives no report if
the flag is up at its end, and otherwise the report that one worker alone would give. No resource
can have been skipped in that case: the flag was up when one was, and nothing takes it down.
-/
namespace StackAudit

variable {g : Graph} {n : Nat} {c : Catalog}

/-! ### The invariant -/

/-- What a worker has found so far and what it has yet to run make up the verdicts on its
resource. -/
def Task.Sound (c : Catalog) : Task g → Prop
  | .idle => True
  | .taken _ => True
  | .judging i done rest =>
    done ++ rest.map (Verdict.ofRule g (g.resourceAt i)) = verdictsOn g c (g.resourceAt i)

/-- A resource that was judged has its verdicts, and one was skipped only with the flag up. -/
def Slot.Sound (c : Catalog) (flag : Option Bool) (i : g.Place) : Slot → Prop
  | .waiting => True
  | .held => True
  | .handled none => flag = some true
  | .handled (some vs) => vs = verdictsOn g c (g.resourceAt i)

theorem Slot.Sound.mono {flag flag' : Option Bool} (hflag : flag = some true → flag' = some true)
    {i : g.Place} {s : Slot} (h : s.Sound c flag i) : s.Sound c flag' i := by
  match s, h with
  | .waiting, _ => trivial
  | .held, _ => trivial
  | .handled none, h => exact hflag h
  | .handled (some _), h => exact h

namespace Pool

theorem raised_of_up {flag : Option Bool} (h : flag = some true) : raised flag = some true := by
  rw [h]
  rfl

theorem ite_raised (up : Bool) (flag : Option Bool) :
    (if up then raised flag else flag) = flag.map (· || up) := by
  cases up <;> simp [raised]

/-- The invariant of a run. -/
structure Sound (c : Catalog) (p : Pool g n) : Prop where
  tasks : ∀ w, (p.tasks w).Sound c
  slots : ∀ i, (p.slots i).Sound c p.flag i

theorem sound_start (c : Catalog) (flag : Option Bool) : (start g n flag).Sound c :=
  ⟨fun _ => trivial, fun _ => trivial⟩

namespace Sound

variable {p q : Pool g n}

theorem update_tasks (h : p.Sound c) (w : Fin n) {t : Task g} (ht : t.Sound c) :
    Sound c { p with tasks := Function.update p.tasks w t } :=
  ⟨(Function.forall_update_iff _ fun _ t => Task.Sound c t).2 ⟨ht, fun v _ => h.tasks v⟩, h.slots⟩

theorem update_slots (h : p.Sound c) (i : g.Place) {s : Slot} (hs : s.Sound c p.flag i) :
    Sound c { p with slots := Function.update p.slots i s } :=
  ⟨h.tasks, (Function.forall_update_iff _ fun i s => Slot.Sound c p.flag i s).2
    ⟨hs, fun j _ => h.slots j⟩⟩

theorem set_flag (h : p.Sound c) {flag : Option Bool}
    (hflag : p.flag = some true → flag = some true) : Sound c { p with flag := flag } :=
  ⟨h.tasks, fun i => (h.slots i).mono hflag⟩

theorem judging (h : p.Sound c) {w : Fin n} {i : g.Place} {done : List Verdict} {rest : List Rule}
    (hw : p.tasks w = .judging i done rest) :
    done ++ rest.map (Verdict.ofRule g (g.resourceAt i)) = verdictsOn g c (g.resourceAt i) := by
  have htask := h.tasks w
  rwa [hw] at htask

/-- Every step keeps the invariant, whoever makes it. -/
theorem step (h : p.Sound c) {actor : Option (Fin n)} (hstep : Step c actor p q) : q.Sound c := by
  cases hstep with
  | take w i hw hi => exact (h.update_tasks w (by trivial)).update_slots i (by trivial)
  | skip w i hw hup => exact (h.update_tasks w (by trivial)).update_slots i hup
  | enter w i hw hdown => exact h.update_tasks w rfl
  | judge w i done r rest up hw =>
    refine (h.set_flag ?_).update_tasks w ?_
    · intro hflag
      cases up with
      | false => exact hflag
      | true => exact raised_of_up hflag
    · rw [Task.Sound, List.append_assoc]
      exact h.judging hw
  | finish w i done hw =>
    have hdone := h.judging hw
    rw [List.map_nil, List.append_nil] at hdone
    exact (h.update_tasks w (by trivial)).update_slots i hdone
  | raise => exact h.set_flag raised_of_up

theorem reaches (h : p.Sound c) (hreach : Reaches c p q) : q.Sound c :=
  of_reaches (fun hstep hp => hp.step hstep) hreach h

/-- At the end of a run nothing was skipped and every verdict is there, unless the flag is up. -/
theorem slots_of_handled (h : p.Sound c) (hhandled : p.Handled) (hdown : p.flag ≠ some true)
    (i : g.Place) : p.slots i = .handled (some (verdictsOn g c (g.resourceAt i))) := by
  obtain ⟨vs, hvs⟩ := hhandled i
  have hslot := h.slots i
  rw [hvs] at hslot ⊢
  cases vs with
  | none => exact absurd hslot hdown
  | some vs =>
    have hvs : vs = verdictsOn g c (g.resourceAt i) := hslot
    rw [hvs]

end Sound

end Pool

/-- Where every resource was judged, the report is that of the whole evaluation. -/
theorem Progress.result_of_judged (g : Graph) (c : Catalog) :
    Progress.result g ⟨false, g.resources.map fun s => some (verdictsOn g c s)⟩ =
      .ok (evaluate g c) := by
  simp [Progress.result, evaluate, List.flatMap_map]

namespace Pool

theorem result_of_up {p : Pool g n} (hup : p.flag = some true) : p.result = .error .cancelled := by
  simp [result, Progress.result, hup]

theorem Sound.result_of_down {p : Pool g n} (h : p.Sound c) (hhandled : p.Handled)
    (hdown : p.flag ≠ some true) : p.result = .ok (evaluate g c) := by
  have hslots : (List.ofFn fun i => (p.slots i).verdicts?) =
      g.resources.map fun s => some (verdictsOn g c s) := by
    simp only [h.slots_of_handled hhandled hdown, Slot.verdicts?]
    exact List.ofFn_getElem_eq_map g.resources fun s => some (verdictsOn g c s)
  rw [result, hslots, decide_eq_false hdown, Progress.result_of_judged]

/-! ### One worker alone -/

/-- A worker that nobody gets in the way of runs the rest of its rules, and each of them raises the
flag if it asks the run to stop. -/
theorem exists_reaches_judged {p : Pool g n} {w : Fin n} {i : g.Place} {done : List Verdict}
    {rest : List Rule} (hw : p.tasks w = .judging i done rest) :
    ∃ q vs, Reaches c p q ∧ q.flag = p.flag.map (· || rest.any fun r => r.stops (g.resourceAt i)) ∧
      q.tasks = Function.update p.tasks w (.judging i vs []) ∧ q.slots = p.slots := by
  induction rest generalizing p done with
  | nil =>
    refine ⟨p, done, .refl, by simp, ?_, rfl⟩
    rw [← hw, Function.update_eq_self]
  | cons r rest ih =>
    obtain ⟨p', hjudge, hflag', htasks', hslots'⟩ : ∃ p', Step c (some w) p p' ∧
        p'.flag = (if r.stops (g.resourceAt i) then raised p.flag else p.flag) ∧
        p'.tasks = Function.update p.tasks w
          (.judging i (done ++ [Verdict.ofRule g (g.resourceAt i) r]) rest) ∧
        p'.slots = p.slots :=
      ⟨_, .judge w i done r rest (r.stops (g.resourceAt i)) hw, rfl, rfl, rfl⟩
    have hw' : p'.tasks w = .judging i (done ++ [Verdict.ofRule g (g.resourceAt i) r]) rest := by
      rw [htasks', Function.update_self]
    obtain ⟨q, vs, hreach, hflag, htasks, hslots⟩ := ih hw'
    refine ⟨q, vs, hreach.head ⟨_, hjudge⟩, ?_, ?_, hslots.trans hslots'⟩
    · rw [hflag, hflag', ite_raised, Option.map_map]
      simp [Function.comp_def, Bool.or_assoc]
    · rw [htasks, htasks', Function.update_idem]

/-- An idle worker that nobody gets in the way of handles a resource as a run of its own would. -/
theorem exists_reaches_visited {p : Pool g n} {w : Fin n} {i : g.Place}
    (hidle : p.tasks w = .idle) (hwaiting : p.slots i = .waiting) :
    ∃ q vs, Reaches c p q ∧
      q.flag = p.flag.map
        (· || (c.rulesFor (g.resourceAt i).kind).any fun r => r.stops (g.resourceAt i)) ∧
      q.tasks = p.tasks ∧ q.slots = Function.update p.slots i (.handled vs) := by
  have hback (t : Task g) : Function.update (Function.update p.tasks w t) w .idle = p.tasks := by
    rw [Function.update_idem, ← hidle, Function.update_eq_self]
  obtain ⟨p₁, htake, hflag₁, htasks₁, hslots₁⟩ : ∃ p₁, Step c (some w) p p₁ ∧
      p₁.flag = p.flag ∧ p₁.tasks = Function.update p.tasks w (.taken i) ∧
      p₁.slots = Function.update p.slots i .held :=
    ⟨_, .take w i hidle hwaiting, rfl, rfl, rfl⟩
  have hw₁ : p₁.tasks w = .taken i := by rw [htasks₁, Function.update_self]
  -- The worker reads the flag: it skips the resource, or it runs the rules.
  by_cases hup : p₁.flag = some true
  · refine ⟨_, none, .tail (.single ⟨_, htake⟩) ⟨_, .skip w i hw₁ hup⟩, ?_, ?_, ?_⟩
    · rw [← hflag₁, hup]
      rfl
    · exact htasks₁ ▸ hback _
    · exact hslots₁ ▸ Function.update_idem ..
  · obtain ⟨p₂, henter, hflag₂, htasks₂, hslots₂⟩ : ∃ p₂, Step c (some w) p₁ p₂ ∧
        p₂.flag = p₁.flag ∧
        p₂.tasks = Function.update p₁.tasks w
          (.judging i [] (c.rulesFor (g.resourceAt i).kind)) ∧
        p₂.slots = p₁.slots :=
      ⟨_, .enter w i hw₁ hup, rfl, rfl, rfl⟩
    have hw₂ : p₂.tasks w = .judging i [] (c.rulesFor (g.resourceAt i).kind) := by
      rw [htasks₂, Function.update_self]
    obtain ⟨p₃, vs, hjudged, hflag₃, htasks₃, hslots₃⟩ := exists_reaches_judged (c := c) hw₂
    have hw₃ : p₃.tasks w = .judging i vs [] := by rw [htasks₃, Function.update_self]
    have hreach : Reaches c p p₃ := (Relation.ReflTransGen.single ⟨_, htake⟩).trans
      ((Relation.ReflTransGen.single ⟨_, henter⟩).trans hjudged)
    refine ⟨_, some vs, hreach.tail ⟨_, .finish w i vs hw₃⟩, ?_, ?_, ?_⟩
    · rw [hflag₃, hflag₂, hflag₁]
    · rw [htasks₃, htasks₂, htasks₁, Function.update_idem, Function.update_idem]
      exact hback _
    · rw [hslots₃, hslots₂, hslots₁, Function.update_idem]

end Pool

namespace Progress

theorem stopped_visit (g : Graph) (c : Catalog) (p : Progress) (s : Resource) :
    (p.visit g c s).stopped =
      (p.stopped || (c.rulesFor s.kind).any fun r => r.stops s) := by
  unfold visit
  split <;> simp [*]

theorem stopped_of_foldl_visit (rs : List Resource) {p : Progress}
    (h : (rs.foldl (visit g c) p).stopped = false) : p.stopped = false := by
  induction rs generalizing p with
  | nil => exact h
  | cons s rs ih =>
    have hvisit := ih h
    rw [stopped_visit, Bool.or_eq_false_iff] at hvisit
    exact hvisit.1

/-- A run that was not stopped skipped nothing. -/
theorem slots_foldl_visit {rs : List Resource} {p : Progress}
    (h : (rs.foldl (visit g c) p).stopped = false) :
    (rs.foldl (visit g c) p).slots = p.slots ++ rs.map fun s => some (verdictsOn g c s) := by
  induction rs generalizing p with
  | nil => simp
  | cons s rs ih =>
    have hp : p.stopped = false := stopped_of_foldl_visit (s :: rs) h
    have hslots : (p.visit g c s).slots = p.slots ++ [some (verdictsOn g c s)] := by
      simp [visit, hp]
    rw [List.foldl_cons] at h ⊢
    rw [ih h, hslots, List.append_assoc, List.map_cons, List.singleton_append]

end Progress

/-- Under a flag, one worker alone gives a report unless the flag is up when it is done. -/
theorem evaluateUnder_some (g : Graph) (c : Catalog) (up : Bool) :
    evaluateUnder g c (some up) =
      if (g.resources.foldl (Progress.visit g c) ⟨up, []⟩).stopped then .error .cancelled
      else .ok (evaluate g c) := by
  rw [evaluateUnder]
  cases h : (g.resources.foldl (Progress.visit g c) ⟨up, []⟩).stopped with
  | true => simp [Progress.result, h]
  | false =>
    have hjudged : g.resources.foldl (Progress.visit g c) ⟨up, []⟩ =
        ⟨false, g.resources.map fun s => some (verdictsOn g c s)⟩ :=
      calc g.resources.foldl (Progress.visit g c) ⟨up, []⟩
        _ = ⟨(g.resources.foldl (Progress.visit g c) ⟨up, []⟩).stopped,
              (g.resources.foldl (Progress.visit g c) ⟨up, []⟩).slots⟩ := rfl
        _ = ⟨false, g.resources.map fun s => some (verdictsOn g c s)⟩ := by
            rw [h, Progress.slots_foldl_visit h, List.nil_append]
    rw [hjudged, Progress.result_of_judged]
    rfl

namespace Pool

/-- One worker handles the resources in declared order, while the others do nothing. -/
theorem exists_reaches_prefix (c : Catalog) (w : Fin n) (flag : Option Bool) {k : Nat}
    (hk : k ≤ g.resources.length) :
    ∃ p : Pool g n, Reaches c (start g n flag) p ∧
      p.flag = flag.map (fun up =>
        ((g.resources.take k).foldl (Progress.visit g c) ⟨up, []⟩).stopped) ∧
      p.tasks w = .idle ∧
      ∀ i, if i.val < k then ∃ vs, p.slots i = .handled vs else p.slots i = .waiting := by
  induction k with
  | zero => exact ⟨start g n flag, .refl, by simp [start], rfl, fun i => by simp [start]⟩
  | succ k ih =>
    obtain ⟨p, hreach, hflag, hidle, hslots⟩ := ih (Nat.le_of_succ_le hk)
    let i : g.Place := ⟨k, hk⟩
    have hwaiting : p.slots i = .waiting := by simpa [i] using hslots i
    obtain ⟨q, vs, hvisit, hflag', htasks, hslots'⟩ :=
      exists_reaches_visited (c := c) hidle hwaiting
    refine ⟨q, hreach.trans hvisit, ?_, htasks ▸ hidle, ?_⟩
    · rw [hflag', hflag, Option.map_map, List.take_succ_eq_append_getElem hk]
      simp only [List.foldl_append, List.foldl_cons, List.foldl_nil, Progress.stopped_visit]
      rfl
    · intro j
      rw [hslots']
      by_cases hji : j = i
      · rw [hji, if_pos (Nat.lt_succ_self k), Function.update_self]
        exact ⟨vs, rfl⟩
      · have hne : j.val ≠ k := fun h => hji (Fin.ext h)
        have hlt : j.val < k + 1 ↔ j.val < k := by omega
        rw [Function.update_of_ne hji]
        simpa only [hlt] using hslots j

/-! ### Any number of workers -/

/-- What a pool reports does not depend on the number of its workers or on the order of their steps,
and is never a part of a report. A run that handled all resources is cancelled if the flag is up;
otherwise it skipped nothing, and it reports what the evaluation without a flag does. One of the
runs is that of a single worker, and it stands for every evaluation that gets its workers. -/
theorem result_of_reaches (g : Graph) (c : Catalog) (n : Nat) (flag : Option Bool) :
    (∀ p : Pool g n, Reaches c (start g n flag) p → p.Handled →
      (p.flag = some true → p.result = .error .cancelled) ∧
      (p.flag ≠ some true →
        (∀ i, p.slots i ≠ .handled none) ∧ p.result = .ok (evaluate g c))) ∧
    (0 < n → ∃ p : Pool g n, Reaches c (start g n flag) p ∧ p.Handled ∧
      ∀ workers (build : PoolBuilder), build.Grants workers →
        p.result = evaluateWith g c flag workers build) := by
  constructor
  · intro p hreach hhandled
    have hsound := (sound_start c flag).reaches hreach
    refine ⟨result_of_up, fun hdown => ⟨?_, hsound.result_of_down hhandled hdown⟩⟩
    intro i hskipped
    have hslot := hsound.slots_of_handled hhandled hdown i
    rw [hskipped] at hslot
    cases hslot
  · intro hn
    obtain ⟨p, hreach, hflag, -, hslots⟩ :=
      exists_reaches_prefix c ⟨0, hn⟩ flag (Nat.le_refl g.resources.length)
    have hhandled : p.Handled := fun i => by simpa [i.isLt] using hslots i
    refine ⟨p, hreach, hhandled, fun workers build hgrants => ?_⟩
    rw [evaluateWith_of_grants g c flag hgrants]
    -- Both results depend on the flag alone, and it is the same one.
    have hsound := (sound_start c flag).reaches hreach
    rw [List.take_length] at hflag
    cases flag with
    | none => exact hsound.result_of_down hhandled (by simp [hflag])
    | some up =>
      rw [evaluateUnder_some]
      split
      · rename_i hstopped
        exact result_of_up (by simp [hflag, hstopped])
      · rename_i hstopped
        exact hsound.result_of_down hhandled (by simp [hflag, hstopped])

end Pool

/-- Two buckets. -/
def pairGraph : Graph :=
  .ofClosed [.ofKind "logs" .bucket, .ofKind "assets" .bucket] (by decide) rfl

/-- Passes every bucket and asks the run to stop. -/
def halting : Rule where
  key := "halting"
  appliesTo := [.bucket]
  severity := .low
  judge _ _ := .ok (.pass "enough")
  stops _ := true

/-- The catalog of that rule. -/
def haltingCatalog : Catalog := ⟨KeyMap.insert ∅ halting.key halting⟩

theorem rulesFor_haltingCatalog : haltingCatalog.rulesFor .bucket = [halting] := by
  have hfilter : haltingCatalog.toList.filter (·.applies .bucket) = [halting] := rfl
  rw [Catalog.rulesFor, hfilter, List.mergeSort_singleton]

namespace Pool

/-- The flag goes up after both workers took a resource and before the second one reads it. -/
theorem result_of_reaches_halted :
    (∃ p : Pool pairGraph 2, Reaches haltingCatalog (start pairGraph 2 (some false)) p ∧
      p.Handled ∧ p.flag = some true ∧ (∃ i vs, p.slots i = .handled (some vs)) ∧
      p.result = .error .cancelled) ∧
    ∃ p : Pool pairGraph 2, Reaches haltingCatalog (start pairGraph 2 none) p ∧ p.Handled ∧
      (∀ i, p.slots i ≠ .handled none) ∧ p.result = .ok (evaluate pairGraph haltingCatalog) := by
  constructor
  · let i : pairGraph.Place := ⟨0, by decide⟩
    let j : pairGraph.Place := ⟨1, by decide⟩
    obtain ⟨p, hreach, hup, ⟨vs, hi⟩, hj⟩ : ∃ p : Pool pairGraph 2,
        Reaches haltingCatalog (start pairGraph 2 (some false)) p ∧ p.flag = some true ∧
          (∃ vs, p.slots i = .handled (some vs)) ∧ p.slots j = .handled none := by
      have hbegun : Reaches haltingCatalog (start pairGraph 2 (some false)) _ :=
        ((Relation.ReflTransGen.single ⟨_, .take 0 i rfl rfl⟩).tail
          ⟨_, .enter 0 i rfl (by decide)⟩).tail
          ⟨_, .take 1 j rfl rfl⟩
      have hrules := congrArg (Task.judging i []) rulesFor_haltingCatalog
      have hjudged := hbegun.tail ⟨_, .judge 0 i [] halting [] true hrules⟩
      have hdone := (hjudged.tail ⟨_, .finish 0 i _ rfl⟩).tail ⟨_, .skip 1 j rfl rfl⟩
      exact ⟨_, hdone, rfl, ⟨_, rfl⟩, rfl⟩
    have hhandled : p.Handled := by
      intro k
      match k with
      | ⟨0, _⟩ => exact ⟨_, hi⟩
      | ⟨1, _⟩ => exact ⟨_, hj⟩
    have hcancelled := ((result_of_reaches _ _ _ _).1 p hreach hhandled).1 hup
    exact ⟨p, hreach, hhandled, hup, ⟨i, vs, hi⟩, hcancelled⟩
  · obtain ⟨hruns, halone⟩ := result_of_reaches pairGraph haltingCatalog 2 none
    obtain ⟨p, hreach, hhandled, hevery⟩ := halone (by decide)
    have hresult := hevery (some 2) .ample (PoolBuilder.grants_ample _)
    obtain ⟨hup, hdown⟩ := hruns p hreach hhandled
    have hnot : p.flag ≠ some true := by
      intro h
      rw [hup h] at hresult
      cases hresult
    exact ⟨p, hreach, hhandled, hdown hnot⟩

end Pool

end StackAudit
