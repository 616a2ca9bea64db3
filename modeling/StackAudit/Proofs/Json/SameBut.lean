import Mathlib.Data.List.Forall2
import StackAudit.Json.Basic

/-!
# Values that differ at some places only

A place in a value is given by the steps that lead there: into a field by its name, into a sequence
to any of its items. Two values are the same but for some places when they agree in everything else,
the names and the order of their fields and the lengths of their sequences included.
-/
namespace StackAudit.Json

theorem map_eq_map_iff {α β γ : Type} {f : α → γ} {g : β → γ} {l : List α} {l' : List β} :
    l.map f = l'.map g ↔ List.Forall₂ (fun a b => f a = g b) l l' := by
  rw [← List.forall₂_eq_eq_eq, List.forall₂_map_left_iff, List.forall₂_map_right_iff]

theorem forall₂_congr_of_mem {α β : Type} {R S : α → β → Prop} {l : List α} {l' : List β}
    (h : ∀ a ∈ l, ∀ b, R a b ↔ S a b) : List.Forall₂ R l l' ↔ List.Forall₂ S l l' := by
  rw [List.forall₂_iff_zip, List.forall₂_iff_zip]
  refine and_congr_right fun _ => forall₂_congr fun a b => forall_congr' fun hab => ?_
  exact h a (List.of_mem_zip hab).1 b

/-- A step into a value. -/
inductive Step where
  | field (name : String)
  | item

/-- Values that are the same but for what stands at some places below them, given by the steps that
lead there. -/
inductive SameBut : (List Step → Prop) → Json → Json → Prop where
  | hidden {P : List Step → Prop} {v w : Json} (h : P []) : SameBut P v w
  | refl {P : List Step → Prop} (v : Json) : SameBut P v v
  | arr {P : List Step → Prop} {vs ws : List Json} (hlength : vs.length = ws.length)
    (hitems : ∀ e ∈ vs.zip ws, SameBut (fun p => P (.item :: p)) e.1 e.2) :
    SameBut P (.arr vs) (.arr ws)
  | obj {P : List Step → Prop} {fs gs : List (String × Json)}
    (hnames : fs.map Prod.fst = gs.map Prod.fst)
    (hfields : ∀ e ∈ fs.zip gs, SameBut (fun p => P (.field e.1.1 :: p)) e.1.2 e.2.2) :
    SameBut P (.obj fs) (.obj gs)

variable {P : List Step → Prop} {v w : Json} {vs ws : List Json} {fs gs : List (String × Json)}

theorem sameBut_arr_iff : SameBut P (.arr vs) (.arr ws) ↔
    P [] ∨ List.Forall₂ (SameBut fun p => P (.item :: p)) vs ws := by
  constructor
  · rintro (h | _ | ⟨hlength, hitems⟩)
    · exact .inl h
    · exact .inr (List.forall₂_same.2 fun v _ => .refl v)
    · exact .inr (List.forall₂_iff_zip.2 ⟨hlength, fun {_ _} he => hitems _ he⟩)
  · rintro (h | h)
    · exact .hidden h
    · obtain ⟨hlength, hitems⟩ := List.forall₂_iff_zip.1 h
      exact .arr hlength fun e he => hitems he

theorem sameBut_obj_iff : SameBut P (.obj fs) (.obj gs) ↔
    P [] ∨ List.Forall₂
      (fun e e' => e.1 = e'.1 ∧ SameBut (fun p => P (.field e.1 :: p)) e.2 e'.2) fs gs := by
  constructor
  · rintro (h | _ | _ | ⟨hnames, hfields⟩)
    · exact .inl h
    · exact .inr (List.forall₂_same.2 fun e _ => ⟨rfl, .refl e.2⟩)
    · obtain ⟨hlength, hnames⟩ := List.forall₂_iff_zip.1 (map_eq_map_iff.1 hnames)
      exact .inr (List.forall₂_iff_zip.2 ⟨hlength, fun {_ _} he => ⟨hnames he, hfields _ he⟩⟩)
  · rintro (h | h)
    · exact .hidden h
    · exact .obj (map_eq_map_iff.2 (h.imp fun _ _ he => he.1))
        fun e he => ((List.forall₂_iff_zip.1 h).2 he).2

/-- Values that have nothing below them in common are told apart as a whole. -/
theorem sameBut_iff_eq (harr : ∀ vs ws, v = .arr vs → w ≠ .arr ws)
    (hobj : ∀ fs gs, v = .obj fs → w ≠ .obj gs) : SameBut P v w ↔ P [] ∨ v = w := by
  constructor
  · rintro (h | _ | _ | _)
    · exact .inl h
    · exact .inr rfl
    · exact absurd rfl (harr _ _ rfl)
    · exact absurd rfl (hobj _ _ rfl)
  · rintro (h | rfl)
    · exact .hidden h
    · exact .refl v

end StackAudit.Json
