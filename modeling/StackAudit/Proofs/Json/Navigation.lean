import Mathlib.Data.List.Forall2
import StackAudit.Proofs.Json.Path

/-!
# Looking up and selecting

Two paths with a dot between them are followed one after the other. A selection without a `*` is a
look-up. One with a `*` has among its values all that are looked up when some name stands in the
place of each `*`.
-/
namespace StackAudit.Json

open Text (pieces)

variable {p q : String}

/-- A path that is put together from two has the segments of both. -/
theorem segments_append (hp : p ≠ "") (hq : q ≠ "") :
    segments (p ++ "." ++ q) = segments p ++ segments q := by
  have hne : p ++ "." ++ q ≠ "" := by
    intro h
    have hlength := congrArg String.length h
    simp at hlength
  have hpieces : pieces '.' (p ++ "." ++ q) = pieces '.' p ++ pieces '.' q :=
    Text.pieces_append '.' p q
  rw [← pieces_of_ne hne, hpieces, pieces_of_ne hp, pieces_of_ne hq]

theorem lookup?_append (v : Json) (hp : p ≠ "") (hq : q ≠ "") :
    v.lookup? (p ++ "." ++ q) = (v.lookup? p).bind (·.lookup? q) := by
  rw [lookup?, segments_append hp hq, followAll?_append]
  rfl

theorem select_append (v : Json) (hp : p ≠ "") (hq : q ≠ "") :
    v.select (p ++ "." ++ q) = (v.select p).flatMap (·.select q) := by
  rw [select, segments_append hp hq, selectAll_append, selectAll_flatMap]
  rfl

/-- Without a `*` at most one value is reached, and the look-up finds it. -/
theorem selectAll_of_plain {ss : List String} (h : "*" ∉ ss) (v : Json) :
    selectAll [v] ss = (v.followAll? ss).toList := by
  induction ss generalizing v with
  | nil => rfl
  | cons s ss ih =>
    rw [List.mem_cons, not_or] at h
    have hstep : v.stepAll s = (v.step? s).toList := if_neg (Ne.symm h.1)
    rw [selectAll_cons, followAll?_cons, hstep]
    cases v.step? s with
    | none => rfl
    | some w =>
      rw [Option.toList_some, List.flatMap_singleton, Option.bind_some]
      exact ih h.2 w

/-- Whether a name may be looked up for a segment: it is the segment, or any name if that is `*`. -/
def StandsFor (name segment : String) : Prop :=
  name = segment ∨ segment = "*" ∧ name ≠ "" ∧ '.' ∉ name.toList

theorem StandsFor.mem_stepAll {name segment : String} (hname : StandsFor name segment)
    {v w : Json} (h : v.step? name = some w) : w ∈ v.stepAll segment := by
  by_cases hall : segment = "*"
  · rw [stepAll, if_pos hall]
    exact mem_children_of_step? h
  · have hsame : name = segment := hname.resolve_right fun hother => hall hother.1
    rw [stepAll, if_neg hall, ← hsame, h]
    exact List.mem_singleton_self w

/-- What is found by names that stand for the segments is selected by the segments. -/
theorem mem_selectAll_of_followAll? {names ss : List String}
    (hnames : List.Forall₂ StandsFor names ss) {v w : Json}
    (h : v.followAll? names = some w) : w ∈ selectAll [v] ss := by
  induction hnames generalizing v with
  | nil =>
    obtain rfl : v = w := Option.some.inj h
    exact List.mem_singleton_self v
  | cons hname _ ih =>
    rw [followAll?_cons] at h
    obtain ⟨u, hu, hw⟩ := Option.bind_eq_some_iff.1 h
    rw [selectAll_cons]
    exact List.mem_flatMap.2 ⟨u, hname.mem_stepAll hu, ih hw⟩

theorem dot_notMem_of_standsFor {names ss : List String} (hnames : List.Forall₂ StandsFor names ss)
    (h : ∀ s ∈ ss, '.' ∉ s.toList) : ∀ name ∈ names, '.' ∉ name.toList := by
  induction hnames with
  | nil => simp
  | cons hname _ ih =>
    obtain ⟨hs, hss⟩ := List.forall_mem_cons.1 h
    refine List.forall_mem_cons.2 ⟨?_, ih hss⟩
    rcases hname with rfl | ⟨-, -, hdot⟩
    · exact hs
    · exact hdot

/-- Names that stand for the pieces of a path are the segments of the path that they make. -/
theorem segments_intercalate {names : List String} (hp : p ≠ "")
    (hnames : List.Forall₂ StandsFor names (pieces '.' p)) :
    segments (".".intercalate names) = names := by
  have hne : names ≠ [] := by
    rintro rfl
    exact Text.pieces_ne_nil '.' p (List.forall₂_nil_left_iff.1 hnames)
  have hdots := dot_notMem_of_standsFor hnames fun s hs => Text.separator_notMem hs
  have hpieces : pieces '.' (".".intercalate names) = names := Text.pieces_intercalate hne hdots
  -- The empty path has one piece, which is empty and stands for no segment but the empty one.
  have hpath : ".".intercalate names ≠ "" := by
    intro hempty
    have hempty' : names = [""] := by
      rw [← hpieces, hempty]
      rfl
    rw [hempty', List.forall₂_cons_left_iff] at hnames
    obtain ⟨s, ss, hs, hss, hcons⟩ := hnames
    rw [List.forall₂_nil_left_iff.1 hss] at hcons
    have hsegment : s = "" := by
      rcases hs with hs | ⟨-, hne, -⟩
      · exact hs.symm
      · exact absurd rfl hne
    have hpath := Text.intercalate_pieces '.' p
    rw [hcons, hsegment] at hpath
    exact hp hpath.symm
  rw [← pieces_of_ne hpath, hpieces]

/-- Paths compose, for look-ups and for selections. A path without a `*` selects what it looks up. A
path with a `*` selects whatever is looked up when any names stand for its segments. -/
theorem navigation_composes (v : Json) (hp : p ≠ "") (hq : q ≠ "") :
    v.lookup? (p ++ "." ++ q) = (v.lookup? p).bind (·.lookup? q) ∧
    v.select (p ++ "." ++ q) = (v.select p).flatMap (·.select q) ∧
    ("*" ∉ pieces '.' p → v.select p = (v.lookup? p).toList) ∧
    ∀ names, List.Forall₂ StandsFor names (pieces '.' p) →
      ∀ w, v.lookup? (".".intercalate names) = some w → w ∈ v.select p := by
  refine ⟨lookup?_append v hp hq, select_append v hp hq, fun hplain => ?_, ?_⟩
  · rw [select, lookup?, ← pieces_of_ne hp]
    exact selectAll_of_plain hplain v
  · intro names hnames w hw
    rw [lookup?, segments_intercalate hp hnames] at hw
    rw [select, ← pieces_of_ne hp]
    exact mem_selectAll_of_followAll? hnames hw

/-- A container with a field whose name is the segment that stands for all fields. -/
def starred : Json := .obj [("*", .str "any"), ("name", .str "sidecar")]

/-- The specification of pods with two lists of containers. -/
def podLists : Json :=
  .obj [("containers", .arr [.obj [("name", .str "app")], starred]),
    ("initContainers", .arr [.obj [("name", .str "setup")], .str "stray"])]

/-- All containers are reached through two `*`, and one of them under names. -/
theorem navigation_composes_podLists :
    "*.*" ≠ "" ∧ "name" ≠ "" ∧
    podLists.select "*.*.name" = (podLists.select "*.*").flatMap (·.select "name") ∧
    podLists.select "*.*.name" = [.str "app", .str "sidecar", .str "setup"] ∧
    podLists.lookup? "containers.1.*" =
      (podLists.lookup? "containers.1").bind (·.lookup? "*") ∧
    podLists.lookup? "containers.1.*" = some (.str "any") ∧
    List.Forall₂ StandsFor ["containers", "1"] (pieces '.' "*.*") ∧
    podLists.lookup? "containers.1" = some starred ∧ starred ∈ podLists.select "*.*" := by
  have hnames : List.Forall₂ StandsFor ["containers", "1"] (pieces '.' "*.*") :=
    .cons (.inr ⟨rfl, by decide, by decide⟩) (.cons (.inr ⟨rfl, by decide, by decide⟩) .nil)
  have hfound : podLists.lookup? "containers.1" = some starred := by decide +kernel
  obtain ⟨-, hselect, -, hall⟩ :=
    navigation_composes (p := "*.*") (q := "name") podLists (by decide) (by decide)
  exact ⟨by decide, by decide, hselect, by decide +kernel,
    (navigation_composes (p := "containers.1") (q := "*") podLists (by decide) (by decide)).1,
    by decide +kernel, hnames, hfound, hall _ hnames _ hfound⟩

end StackAudit.Json
