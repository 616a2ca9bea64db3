import StackAudit.Json.Path
import StackAudit.Proofs.Text.Lines

/-!
# The first segment of a path

A path is followed segment by segment, so it may be cut at its first dot and followed in two parts.
Behind that dot there is always a further segment, if only the empty one. Each step leads to a
smaller value.
-/
namespace StackAudit.Json

open Text (pieces splitFirst)

variable {path head rest : String}

/-- Cut at its first dot, a path is one segment with the others behind it. -/
theorem segments_of_splitFirst (h : splitFirst '.' path = some (head, rest)) :
    segments path = head :: pieces '.' rest := by
  have hne : path ≠ "" := by
    rintro rfl
    cases h
  obtain ⟨hdot, hpath⟩ := Text.splitFirst_eq_some_iff.1 h
  rw [segments, if_neg hne, hpath, Text.pieces_append, Text.pieces_of_notMem hdot,
    List.singleton_append]

/-- A path without a dot is its only segment. -/
theorem segments_of_not_splitFirst (hne : path ≠ "") (h : splitFirst '.' path = none) :
    segments path = [path] := by
  have hdot : '.' ∉ path.toList := Text.cutFirst_eq_none_iff.1 (Option.map_eq_none_iff.1 h)
  rw [segments, if_neg hne, Text.pieces_of_notMem hdot]

theorem pieces_of_ne (h : rest ≠ "") : pieces '.' rest = segments rest := by
  rw [segments, if_neg h]

theorem followAll?_cons (v : Json) (segment : String) (more : List String) :
    v.followAll? (segment :: more) = (v.step? segment).bind (·.followAll? more) := rfl

theorem lookup?_of_splitFirst (v : Json) (h : splitFirst '.' path = some (head, rest)) :
    v.lookup? path = (v.step? head).bind (·.followAll? (pieces '.' rest)) := by
  rw [lookup?, segments_of_splitFirst h, followAll?_cons]

theorem selectAll_cons (v : Json) (segment : String) (more : List String) :
    selectAll [v] (segment :: more) = (v.stepAll segment).flatMap fun w => selectAll [w] more := by
  have hstep : selectAll [v] (segment :: more) = selectAll ([v].flatMap (·.stepAll segment)) more :=
    rfl
  rw [hstep, List.flatMap_singleton, selectAll_flatMap]

theorem select_of_splitFirst (v : Json) (h : splitFirst '.' path = some (head, rest)) :
    v.select path = (v.stepAll head).flatMap fun w => selectAll [w] (pieces '.' rest) := by
  rw [select, segments_of_splitFirst h, selectAll_cons]

/-- A step leads to one of the children. -/
theorem mem_children_of_step? {v w : Json} {segment : String} (h : v.step? segment = some w) :
    w ∈ v.children := by
  cases v with
  | arr items =>
    obtain ⟨i, -, hi⟩ := Option.bind_eq_some_iff.1 h
    exact List.mem_of_getElem? hi
  | obj fields =>
    obtain ⟨before, after, hfields, -⟩ := List.lookup_eq_some_iff.1 h
    have hfield : (segment, w) ∈ fields := hfields ▸ List.mem_append_right _ List.mem_cons_self
    exact List.mem_map_of_mem hfield
  | _ => cases h

theorem sizeOf_lt_of_mem_children {v w : Json} (h : w ∈ v.children) : sizeOf w < sizeOf v := by
  cases v with
  | arr items =>
    have hlt : sizeOf w < sizeOf items := List.sizeOf_lt_of_mem h
    rw [arr.sizeOf_spec]
    omega
  | obj fields =>
    obtain ⟨⟨key, item⟩, hfield, hitem⟩ := List.mem_map.1 h
    have hlt := List.sizeOf_lt_of_mem hfield
    rw [Prod.mk.sizeOf_spec] at hlt
    rw [← hitem, obj.sizeOf_spec]
    change sizeOf item < _
    omega
  | _ => cases h

/-- What holds of a value when it holds of all its children holds of every value. -/
theorem induction_children {motive : Json → Prop}
    (h : ∀ v, (∀ w ∈ v.children, motive w) → motive v) (v : Json) : motive v :=
  h v fun w _ => induction_children h w
termination_by sizeOf v
decreasing_by exact sizeOf_lt_of_mem_children ‹_›

/-- A step leads to a smaller value. -/
theorem sizeOf_lt_of_step? {v w : Json} {segment : String} (h : v.step? segment = some w) :
    sizeOf w < sizeOf v :=
  sizeOf_lt_of_mem_children (mem_children_of_step? h)

theorem step?_ne_self (v : Json) (segment : String) : v.step? segment ≠ some v := by
  intro h
  exact Nat.lt_irrefl _ (sizeOf_lt_of_step? h)

end StackAudit.Json
