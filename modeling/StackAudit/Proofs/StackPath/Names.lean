import StackAudit.Proofs.StackPath.Join
import StackAudit.Proofs.StackPath.Relative

/-!
# Paths between whose slashes there are names

A path that is written with names has these as its pieces. So a piece that is no name, an empty one
or a dot, never stands in it: the path does not start at the top, does not end with a slash and is
not the place itself. Two such paths are therefore joined by writing their names in a row, and the
steps from a directory to one below it, and from there on, make up the whole way.
-/
namespace StackAudit

section

variable {names : List String} (hne : names ≠ []) (hnames : ∀ s ∈ names, IsEntryName s)
include hne hnames

theorem pieces_intercalate_names : Text.pieces '/' ("/".intercalate names) = names :=
  Text.pieces_intercalate hne fun s hs => (hnames s hs).slash_notMem

/-- Without a slash, a text that is no name is not the path. -/
theorem intercalate_names_ne {s : String} (hslash : '/' ∉ s.toList) (hs : ¬IsEntryName s) :
    "/".intercalate names ≠ s := by
  intro h
  have hpieces := pieces_intercalate_names hne hnames
  rw [h, Text.pieces_of_notMem hslash] at hpieces
  exact hs (hnames s (hpieces ▸ List.mem_singleton_self s))

/-- What stands before a slash of the path and behind it consists of names. -/
theorem pieces_around_slash {front rest : String}
    (h : "/".intercalate names = front ++ String.singleton '/' ++ rest) :
    Text.pieces '/' front ++ Text.pieces '/' rest = names := by
  rw [← Text.pieces_append, ← h]
  exact pieces_intercalate_names hne hnames

theorem isAbsolute_intercalate_names : Disk.isAbsolute ("/".intercalate names) = false := by
  rw [← Bool.not_eq_true, Disk.isAbsolute_eq, beq_iff_eq, List.head?_eq_some_iff]
  rintro ⟨r, hr⟩
  have hfront : "/".intercalate names = "" ++ String.singleton '/' ++ String.ofList r := by
    rw [← String.toList_inj, hr]
    simp
  have hempty : "" ∈ names :=
    pieces_around_slash hne hnames hfront ▸ List.mem_append_left _ (by decide)
  exact (hnames "" hempty).ne_empty rfl

/-- Without a backslash in the names, the path is canonical. -/
theorem ofText_intercalate_names (hplain : ∀ s ∈ names, '\\' ∉ s.toList) :
    StackPath.ofText ("/".intercalate names) = ⟨"/".intercalate names⟩ := by
  refine StackPath.ofText_text_eq_iff.2 ⟨?_, ?_, ?_⟩
  · intro h
    exact intercalate_names_ne hne hnames (s := "") (by decide) (by decide) (String.toList_inj.1 h)
  · exact (Text.notMem_intercalate_iff (by decide)).2 hplain
  · rintro ⟨r, hr⟩
    have hchars : ("/".intercalate names).toList = ['.', '/'] ++ r := hr.symm
    have hfront : "/".intercalate names = "." ++ String.singleton '/' ++ String.ofList r := by
      rw [← String.toList_inj, hchars]
      simp
    have hdot : "." ∈ names :=
      pieces_around_slash hne hnames hfront ▸ List.mem_append_left _ (by decide)
    exact (hnames "." hdot).ne_dot rfl

/-- A dot stands for the place itself, but it is no name. -/
theorem ofText_intercalate_names_ne_here (hplain : ∀ s ∈ names, '\\' ∉ s.toList) :
    StackPath.ofText ("/".intercalate names) ≠ StackPath.here := by
  rw [ofText_intercalate_names hne hnames hplain]
  intro h
  exact intercalate_names_ne hne hnames (by decide) (by decide) (congrArg StackPath.text h)

/-- The path has no slash at its end. -/
theorem stem_intercalate_names :
    StackPath.stem ⟨"/".intercalate names⟩ = ("/".intercalate names).toList := by
  obtain ⟨slashes, hslashes, htext⟩ := StackPath.exists_slashes ⟨"/".intercalate names⟩
  obtain rfl | ⟨front, c, rfl⟩ := List.eq_nil_or_concat' slashes
  · rw [← htext, List.append_nil]
  · obtain rfl := hslashes c (by simp)
    generalize StackPath.stem ⟨"/".intercalate names⟩ = stem at htext
    have hfront : "/".intercalate names =
        String.ofList (stem ++ front) ++ String.singleton '/' ++ "" := by
      rw [← String.toList_inj, ← htext]
      simp
    have hempty : "" ∈ names :=
      pieces_around_slash hne hnames hfront ▸ List.mem_append_right _ (by decide)
    exact absurd rfl (hnames "" hempty).ne_empty

end

namespace StackPath

/-- Paths that are written with names are joined by writing all the names. -/
theorem join_ofText_names {above below : List String} (hnames : ∀ s ∈ above ++ below, IsEntryName s)
    (hplain : ∀ s ∈ above ++ below, '\\' ∉ s.toList) :
    (ofText ("/".intercalate above)).join (ofText ("/".intercalate below)) =
      ofText ("/".intercalate (above ++ below)) := by
  have hempty : ofText ("/".intercalate []) = here := by decide
  by_cases habove : above = []
  · rw [habove, hempty, join_here_left, List.nil_append]
  by_cases hbelow : below = []
  · rw [hbelow, hempty, join_here_right, List.append_nil]
  obtain ⟨hnames₁, hnames₂⟩ := List.forall_mem_append.1 hnames
  obtain ⟨hplain₁, hplain₂⟩ := List.forall_mem_append.1 hplain
  have habove' := ofText_intercalate_names_ne_here habove hnames₁ hplain₁
  have hbelow' := ofText_intercalate_names_ne_here hbelow hnames₂ hplain₂
  have hboth : above ++ below ≠ [] := List.append_ne_nil_of_left_ne_nil habove _
  apply eq_of_toList_text
  rw [(isCanonical_ofText _).toList_text_join (isCanonical_ofText _) habove' hbelow',
    ofText_intercalate_names habove hnames₁ hplain₁,
    ofText_intercalate_names hbelow hnames₂ hplain₂, ofText_intercalate_names hboth hnames hplain,
    stem_intercalate_names habove hnames₁, String.intercalate_append_of_ne_nil habove hbelow]
  simp

/-- The way from a root to a directory below it, and then from there on, is the way from the root to
the end. -/
theorem join_relativeTo_joinNames (root : String) {above below : List String}
    (hnames : ∀ s ∈ above ++ below, IsEntryName s)
    (hplain : ∀ s ∈ above ++ below, '\\' ∉ s.toList) :
    (relativeTo root (Disk.joinNames root above)).join
        (relativeTo (Disk.joinNames root above)
          (Disk.joinNames (Disk.joinNames root above) below)) =
      relativeTo root (Disk.joinNames (Disk.joinNames root above) below) := by
  obtain ⟨habove, hbelow⟩ := List.forall_mem_append.1 hnames
  rw [relativeTo_joinNames root habove, relativeTo_joinNames _ hbelow,
    join_ofText_names hnames hplain, ← Disk.joinNames_append, relativeTo_joinNames root hnames]

end StackPath

end StackAudit
