import Mathlib.Data.List.Basic
import Mathlib.Tactic.Common
import StackAudit.FileTree.Basic

/-!
# Well-named trees

In a tree of files as a disk holds it no directory has two entries of one name, and every name that
is a text can stand between the slashes of a path. What stands at the end of a list of names is
again such a tree.
-/
namespace StackAudit

/-- What can name an entry of a directory: no step that stays or goes up, and no slash in it. -/
structure IsEntryName (s : String) : Prop where
  ne_empty : s ≠ ""
  ne_dot : s ≠ "."
  ne_dots : s ≠ ".."
  slash_notMem : '/' ∉ s.toList

instance (s : String) : Decidable (IsEntryName s) :=
  decidable_of_iff (s ≠ "" ∧ s ≠ "." ∧ s ≠ ".." ∧ '/' ∉ s.toList)
    ⟨fun ⟨h₁, h₂, h₃, h₄⟩ => ⟨h₁, h₂, h₃, h₄⟩, fun ⟨h₁, h₂, h₃, h₄⟩ => ⟨h₁, h₂, h₃, h₄⟩⟩

namespace FileName

/-- A name that a disk can hold. -/
def IsValid : FileName → Prop
  | .text s => IsEntryName s
  | .octets _ => True

/-- A name that a disk can hold and that is a text. -/
def IsText : FileName → Prop
  | .text s => IsEntryName s
  | .octets _ => False

instance (n : FileName) : Decidable n.IsText :=
  match n with
  | .text s => inferInstanceAs (Decidable (IsEntryName s))
  | .octets _ => .isFalse id

theorem IsText.isValid {n : FileName} (h : n.IsText) : n.IsValid := by
  cases n with
  | text s => exact h
  | octets bs => exact h.elim

end FileName

namespace FileTree

@[simp] theorem get?_nil (t : FileTree) : t.get? [] = some t := rfl

@[simp] theorem get?_file_cons (content : ByteArray) (n : FileName) (names : List FileName) :
    (file content).get? (n :: names) = none := rfl

@[simp] theorem get?_dir_cons (entries : List (FileName × FileTree)) (n : FileName)
    (names : List FileName) :
    (dir entries).get? (n :: names) = (entries.lookup n).bind (·.get? names) := rfl

theorem get?_append (t : FileTree) (names more : List FileName) :
    t.get? (names ++ more) = (t.get? names).bind (·.get? more) :=
  List.foldlM_append

/-- No directory of the tree has two entries of one name, and the names are of the given kind. -/
inductive WellNamed (ok : FileName → Prop) : FileTree → Prop where
  | file (content : ByteArray) : WellNamed ok (.file content)
  | dir {entries : List (FileName × FileTree)} (distinct : (entries.map Prod.fst).Nodup)
      (names : ∀ e ∈ entries, ok e.1) (below : ∀ e ∈ entries, WellNamed ok e.2) :
      WellNamed ok (.dir entries)

theorem WellNamed.mono {ok ok' : FileName → Prop} (hok : ∀ n, ok n → ok' n) {t : FileTree}
    (h : t.WellNamed ok) : t.WellNamed ok' := by
  induction h with
  | file content => exact .file content
  | dir distinct names _ ih => exact .dir distinct (fun e he => hok _ (names e he)) ih

/-- Where names are distinct, looking one up gives the entry that has it. -/
theorem lookup_eq_some_iff_mem {entries : List (FileName × FileTree)}
    (distinct : (entries.map Prod.fst).Nodup) {n : FileName} {t : FileTree} :
    entries.lookup n = some t ↔ (n, t) ∈ entries := by
  constructor
  · intro h
    obtain ⟨before, after, rfl, -⟩ := List.lookup_eq_some_iff.1 h
    simp
  · intro h
    obtain ⟨before, after, rfl⟩ := List.append_of_mem h
    refine List.lookup_eq_some_iff.2 ⟨before, after, rfl, fun e he => ?_⟩
    rw [List.map_append, List.nodup_append] at distinct
    simpa using (distinct.2.2 e.1 (List.mem_map_of_mem he) n (by simp)).symm

variable {ok : FileName → Prop}

/-- What stands in a well-named tree is well-named, and so are the steps that lead there. -/
theorem WellNamed.of_get? {t sub : FileTree} (h : t.WellNamed ok) {names : List FileName}
    (hsub : t.get? names = some sub) : sub.WellNamed ok ∧ ∀ n ∈ names, ok n := by
  induction h generalizing names with
  | file content =>
    cases names with
    | nil =>
      obtain rfl := Option.some.inj hsub
      exact ⟨.file content, by simp⟩
    | cons n names => simp at hsub
  | @dir entries distinct hok below ih =>
    cases names with
    | nil =>
      obtain rfl := Option.some.inj hsub
      exact ⟨.dir distinct hok below, by simp⟩
    | cons n names =>
      obtain ⟨t, hentry, hsub⟩ := Option.bind_eq_some_iff.1 hsub
      have hmem := (lookup_eq_some_iff_mem distinct).1 hentry
      obtain ⟨hwell, hnames⟩ := ih (n, t) hmem hsub
      exact ⟨hwell, List.forall_mem_cons.2 ⟨hok _ hmem, hnames⟩⟩

/-- The texts that lead to a place in a well-named tree are names of entries. -/
theorem WellNamed.isEntryName {t sub : FileTree} (h : t.WellNamed FileName.IsValid)
    {names : List String} (hsub : t.get? (names.map .text) = some sub) :
    ∀ s ∈ names, IsEntryName s :=
  fun _ hs => (h.of_get? hsub).2 _ (List.mem_map_of_mem hs)

end FileTree

end StackAudit
