import Mathlib.Data.List.Perm.Basic

/-!
# Computations that may fail

When a computation that is put together from others succeeds. A list of computations succeeds when
each of them does.
-/
namespace StackAudit

variable {α β ε δ : Type}

theorem ok_bind (a : α) (f : α → Except ε β) : (.ok a >>= f) = f a := rfl

@[simp] theorem bind_eq_ok_iff {x : Except ε α} {f : α → Except ε β} {b : β} :
    (x >>= f) = .ok b ↔ ∃ a, x = .ok a ∧ f a = .ok b := by
  cases x <;> simp [bind, Except.bind]

@[simp] theorem map_eq_ok_iff {x : Except ε α} {f : α → β} {b : β} :
    x.map f = .ok b ↔ ∃ a, x = .ok a ∧ f a = b := by
  cases x <;> simp [Except.map]

@[simp] theorem functorMap_eq_ok_iff {x : Except ε α} {f : α → β} {b : β} :
    (f <$> x) = .ok b ↔ ∃ a, x = .ok a ∧ f a = b :=
  map_eq_ok_iff

@[simp] theorem mapError_eq_ok_iff {x : Except ε α} {f : ε → δ} {a : α} :
    x.mapError f = .ok a ↔ x = .ok a := by
  cases x <;> simp [Except.mapError]

theorem mapError_eq_error_iff {x : Except ε α} {f : ε → δ} {e : δ} :
    x.mapError f = .error e ↔ ∃ cause, x = .error cause ∧ f cause = e := by
  cases x <;> simp [Except.mapError]

theorem bind_eq_error_iff {x : Except ε α} {f : α → Except ε β} {e : ε} :
    (x >>= f) = .error e ↔ x = .error e ∨ ∃ a, x = .ok a ∧ f a = .error e := by
  cases x <;> simp [bind, Except.bind]

theorem exists_eq_ok_iff {x : Except ε α} : (∃ a, x = .ok a) ↔ ∀ e, x ≠ .error e := by
  cases x <;> simp

theorem pure_eq_ok_iff {a b : α} : (pure a : Except ε α) = .ok b ↔ a = b :=
  Except.ok.injEq a b ▸ Iff.rfl

theorem toOption_eq_some_iff {x : Except ε α} {a : α} : x.toOption = some a ↔ x = .ok a := by
  cases x <;> simp [Except.toOption]

theorem exists_eq_ok_of_map {x : Except ε α} {f : α → β} {b : β}
    (h : x.toOption.map f = some b) : ∃ a, x = .ok a ∧ f a = b := by
  obtain ⟨a, ha, hb⟩ := Option.map_eq_some_iff.1 h
  exact ⟨a, toOption_eq_some_iff.1 ha, hb⟩

theorem mapM_eq_ok_iff {f : α → Except ε β} {l : List α} {r : List β} :
    l.mapM f = .ok r ↔ List.Forall₂ (fun a b => f a = .ok b) l r := by
  induction l generalizing r with
  | nil =>
    rw [List.mapM_nil, pure_eq_ok_iff, List.forall₂_nil_left_iff, eq_comm]
  | cons a l ih =>
    simp only [List.mapM_cons, bind_eq_ok_iff, pure_eq_ok_iff, ih, List.forall₂_cons_left_iff]
    constructor
    · rintro ⟨b, hb, r, hr, rfl⟩
      exact ⟨b, r, hb, hr, rfl⟩
    · rintro ⟨b, r, hb, hr, rfl⟩
      exact ⟨b, hb, r, hr, rfl⟩

/-- The order of a list decides neither whether a computation succeeds on all of it nor, up to the
same order, what it gives. -/
theorem exists_mapM_eq_ok_of_perm {f : α → Except ε β} {l l' : List α} {r : List β}
    (h : l.Perm l') (hr : l.mapM f = .ok r) : ∃ r', l'.mapM f = .ok r' ∧ r.Perm r' := by
  obtain ⟨r', hr', hperm⟩ := List.perm_comp_forall₂ h.symm (mapM_eq_ok_iff.1 hr)
  exact ⟨r', mapM_eq_ok_iff.2 hr', hperm.symm⟩

/-- What a list of computations gives is given by one of them. -/
theorem mem_iff_of_mapM_eq_ok {f : α → Except ε β} {l : List α} {r : List β}
    (h : l.mapM f = .ok r) {b : β} : b ∈ r ↔ ∃ a ∈ l, f a = .ok b := by
  rw [mapM_eq_ok_iff] at h
  induction h with
  | nil => simp
  | @cons a c l r hac _ ih =>
    have hhead : b = c ↔ f a = .ok b := by rw [hac, Except.ok.injEq, eq_comm]
    rw [List.mem_cons, List.exists_mem_cons_iff, hhead, ih]

theorem exists_of_mem_of_mapM_eq_ok {f : α → Except ε β} {l : List α} {r : List β}
    (h : l.mapM f = .ok r) {a : α} (ha : a ∈ l) : ∃ b, f a = .ok b := by
  rw [mapM_eq_ok_iff] at h
  induction h with
  | nil => exact absurd ha List.not_mem_nil
  | cons hb _ ih =>
    rcases List.mem_cons.1 ha with rfl | ha
    · exact ⟨_, hb⟩
    · exact ih ha

/-- A list of computations succeeds when each of them does. -/
theorem exists_mapM_eq_ok_iff {f : α → Except ε β} {l : List α} :
    (∃ r, l.mapM f = .ok r) ↔ ∀ a ∈ l, ∃ b, f a = .ok b := by
  constructor
  · rintro ⟨r, hr⟩ a ha
    exact exists_of_mem_of_mapM_eq_ok hr ha
  · intro h
    induction l with
    | nil => exact ⟨[], rfl⟩
    | cons a l ih =>
      obtain ⟨⟨b, hb⟩, hl⟩ := List.forall_mem_cons.1 h
      obtain ⟨r, hr⟩ := ih hl
      exact ⟨b :: r, mapM_eq_ok_iff.2 (.cons hb (mapM_eq_ok_iff.1 hr))⟩

/-- Where computations differ in how they name their errors, so do lists of them. -/
theorem mapM_eq_mapError {f : α → Except ε β} {g : α → Except δ β} {e : ε → δ} {l : List α}
    (h : ∀ a ∈ l, g a = (f a).mapError e) : l.mapM g = (l.mapM f).mapError e := by
  induction l with
  | nil => rfl
  | cons a l ih =>
    obtain ⟨ha, hl⟩ := List.forall_mem_cons.1 h
    rw [List.mapM_cons, List.mapM_cons, ha, ih hl]
    cases f a with
    | error x => rfl
    | ok b => cases l.mapM f <;> rfl

/-- Checks on a list pass when each of them does. -/
theorem forM_eq_ok_iff {f : α → Except ε Unit} {l : List α} :
    l.forM f = .ok () ↔ ∀ a ∈ l, f a = .ok () := by
  induction l with
  | nil => simp [pure, Except.pure]
  | cons a l ih =>
    change (f a >>= fun _ => l.forM f) = _ ↔ _
    rw [bind_eq_ok_iff, List.forall_mem_cons, ← ih]
    exact ⟨fun ⟨_, ha, hl⟩ => ⟨ha, hl⟩, fun ⟨ha, hl⟩ => ⟨_, ha, hl⟩⟩

/-- Where some computations of a list give nothing, the others and what they give stay in line. -/
theorem forall₂_filterMap_of_mapM {f : α → Except ε (Option β)} {p : α → Bool} {l : List α}
    {r : List (Option β)} (h : l.mapM f = .ok r) (hp : ∀ a b, f a = .ok b → b.isSome = p a) :
    List.Forall₂ (fun a b => f a = .ok (some b)) (l.filter p) (r.filterMap id) := by
  rw [mapM_eq_ok_iff] at h
  induction h with
  | nil => exact .nil
  | @cons a b l r hab _ ih =>
    have ha := hp a b hab
    cases b with
    | none =>
      rw [List.filter_cons_of_neg (by simp [← ha])]
      exact ih
    | some b =>
      rw [List.filter_cons_of_pos (by simp [← ha])]
      exact .cons hab ih

/-- A result, unless there are faults; then the first of them. -/
def okUnless (faults : List ε) (b : β) : Except ε β :=
  match faults with
  | [] => .ok b
  | e :: _ => .error e

/-- Where each computation fails with the first of its faults, the list of them fails with the first
fault of all. -/
theorem mapM_eq_okUnless {f : α → Except ε β} {g : α → β} {faults : α → List ε} {l : List α}
    (h : ∀ a ∈ l, f a = okUnless (faults a) (g a)) :
    l.mapM f = okUnless (l.flatMap faults) (l.map g) := by
  induction l with
  | nil => rfl
  | cons a l ih =>
    have ha := h a List.mem_cons_self
    have hl := ih fun b hb => h b (List.mem_cons_of_mem _ hb)
    rw [List.mapM_cons, ha, List.flatMap_cons]
    cases faults a with
    | cons e r => rfl
    | nil =>
      rw [hl, List.nil_append]
      cases l.flatMap faults <;> rfl

/-- A loop that fails does so in one step, and with the error of that step. -/
theorem foldlM_eq_error_iff {f : β → α → Except ε β} {l : List α} {b : β} {e : ε} :
    l.foldlM f b = .error e ↔ ∃ before a after c, l = before ++ a :: after ∧
      before.foldlM f b = .ok c ∧ f c a = .error e := by
  constructor
  · intro h
    induction l generalizing b with
    | nil => cases h
    | cons a l ih =>
      rw [List.foldlM_cons, bind_eq_error_iff] at h
      rcases h with h | ⟨c, hc, h⟩
      · exact ⟨[], a, l, b, rfl, rfl, h⟩
      · obtain ⟨before, a', after, d, rfl, hd, h⟩ := ih h
        refine ⟨a :: before, a', after, d, rfl, ?_, h⟩
        rw [List.foldlM_cons, bind_eq_ok_iff]
        exact ⟨c, hc, hd⟩
  · rintro ⟨before, a, after, c, rfl, hc, h⟩
    rw [List.foldlM_append, hc]
    change f c a >>= _ = _
    rw [h]
    rfl

/-- What each step of a loop keeps, the loop keeps. -/
theorem of_foldlM_eq_ok {P : β → Prop} {f : β → α → Except ε β} {l : List α} {b c : β}
    (hstep : ∀ b a c, P b → f b a = .ok c → P c) (hb : P b) (h : l.foldlM f b = .ok c) : P c := by
  induction l generalizing b with
  | nil => exact Except.ok.inj h ▸ hb
  | cons a l ih =>
    rw [List.foldlM_cons, bind_eq_ok_iff] at h
    obtain ⟨d, hd, hrest⟩ := h
    exact ih (hstep b a d hb hd) hrest

/-- Where the state of a loop does not decide whether a step succeeds, the loop succeeds when each
of its steps does. -/
theorem exists_foldlM_eq_ok_iff {f : β → α → Except ε β} {P : α → Prop}
    (h : ∀ b a, (∃ c, f b a = .ok c) ↔ P a) {l : List α} {b : β} :
    (∃ c, l.foldlM f b = .ok c) ↔ ∀ a ∈ l, P a := by
  induction l generalizing b with
  | nil => simp [pure_eq_ok_iff]
  | cons a l ih =>
    simp only [List.foldlM_cons, bind_eq_ok_iff, List.forall_mem_cons, ← h b a]
    constructor
    · intro hrun
      obtain ⟨c, d, hd, hc⟩ := hrun
      exact ⟨⟨d, hd⟩, ih.1 ⟨c, hc⟩⟩
    · intro hsteps
      obtain ⟨⟨d, hd⟩, hrest⟩ := hsteps
      obtain ⟨c, hc⟩ := ih.2 hrest
      exact ⟨c, d, hd, hc⟩

/-- A loop goes along with a map of its states when each step does. -/
theorem foldlM_map {f : β → α → Except ε β} {φ : β → β}
    (h : ∀ b a, f (φ b) a = (f b a).map φ) (l : List α) (b : β) :
    l.foldlM f (φ b) = (l.foldlM f b).map φ := by
  induction l generalizing b with
  | nil => rfl
  | cons a l ih =>
    rw [List.foldlM_cons, List.foldlM_cons, h]
    cases f b a with
    | error e => rfl
    | ok c => exact ih c

/-! ### What may go wrong -/

/-- Every error of the computation has the property. -/
def FailsOnly (P : ε → Prop) (x : Except ε α) : Prop := ∀ e, x = .error e → P e

namespace FailsOnly

variable {P : ε → Prop}

theorem ok (a : α) : FailsOnly P (.ok a : Except ε α) := by
  rintro e ⟨⟩

theorem error {e : ε} (h : P e) : FailsOnly P (.error e : Except ε α) := by
  rintro _ ⟨⟩
  exact h

theorem bind {x : Except ε α} {f : α → Except ε β} (hx : FailsOnly P x)
    (hf : ∀ a, FailsOnly P (f a)) : FailsOnly P (x >>= f) := by
  intro e he
  rcases bind_eq_error_iff.1 he with he | ⟨a, -, he⟩
  · exact hx e he
  · exact hf a e he

theorem map {x : Except ε α} (f : α → β) (hx : FailsOnly P x) : FailsOnly P (x.map f) := by
  cases x with
  | ok a => exact ok (f a)
  | error e => exact error (hx e rfl)

theorem mapM {f : α → Except ε β} {l : List α} (hf : ∀ a ∈ l, FailsOnly P (f a)) :
    FailsOnly P (l.mapM f) := by
  induction l with
  | nil => exact ok []
  | cons a l ih =>
    obtain ⟨ha, hl⟩ := List.forall_mem_cons.1 hf
    rw [List.mapM_cons]
    exact bind ha fun b => bind (ih hl) fun bs => ok (b :: bs)

end FailsOnly

end StackAudit
