import StackAudit.Proofs.FileTree.Paths

/-!
# Where paths lead, whatever the files hold

The names in a tree, and which of its entries are files, decide where a path leads. What the files
hold does not, so it can be chosen freely and for each file by the names that lead there.
-/
namespace StackAudit

theorem fromUTF8?_toUTF8 (s : String) : String.fromUTF8? s.toUTF8 = some s := by
  have hvalid : s.toUTF8.IsValidUTF8 := s.isValidUTF8
  rw [String.fromUTF8?, dif_pos hvalid]
  rfl

namespace FileTree

/-- The text of the file at the end of the names. -/
def textAt? (t : FileTree) (names : List String) : Option String :=
  match t.get? (names.map .text) with
  | some (.file content) => String.fromUTF8? content
  | _ => none

/-- The same names lead to files, and the same to directories. -/
def SameShape (t t' : FileTree) : Prop :=
  ∀ names, (t.get? names).map isFile = (t'.get? names).map isFile

namespace SameShape

variable {t t' sub sub' : FileTree} {names : List FileName}

theorem symm (h : t.SameShape t') : t'.SameShape t := fun names => (h names).symm

theorem of_get? (h : t.SameShape t') (hsub : t.get? names = some sub)
    (hsub' : t'.get? names = some sub') : sub.SameShape sub' := by
  intro more
  have hmore := h (names ++ more)
  rwa [get?_append, get?_append, hsub, hsub', Option.bind_some, Option.bind_some] at hmore

theorem get?_eq_none (h : t.SameShape t') (hsub : t.get? names = none) : t'.get? names = none := by
  have hnames := h names
  rw [hsub, Option.map_none] at hnames
  exact Option.map_eq_none_iff.1 hnames.symm

theorem exists_get? (h : t.SameShape t') (hsub : t.get? names = some sub) :
    ∃ sub', t'.get? names = some sub' ∧ sub'.isFile = sub.isFile := by
  have hnames := h names
  rw [hsub, Option.map_some] at hnames
  exact Option.map_eq_some_iff.1 hnames.symm

theorem exists_file (h : t.SameShape t') {content : ByteArray}
    (hsub : t.get? names = some (.file content)) :
    ∃ content', t'.get? names = some (.file content') := by
  obtain ⟨sub', hsub', hfile⟩ := h.exists_get? hsub
  cases sub' with
  | file content' => exact ⟨content', hsub'⟩
  | dir entries => cases hfile

theorem exists_dir (h : t.SameShape t') {entries : List (FileName × FileTree)}
    (hsub : t.get? names = some (.dir entries)) :
    ∃ entries', t'.get? names = some (.dir entries') := by
  obtain ⟨sub', hsub', hfile⟩ := h.exists_get? hsub
  cases sub' with
  | file content' => cases hfile
  | dir entries' => exact ⟨entries', hsub'⟩

theorem isSome_lookup {entries entries' : List (FileName × FileTree)}
    (h : (dir entries).SameShape (dir entries')) (n : FileName) :
    (entries.lookup n).isSome = (entries'.lookup n).isSome := by
  have hentry := congrArg Option.isSome (h [n])
  simpa using hentry

end SameShape

/-! ### Choosing what the files hold -/

mutual

/-- The tree whose files hold the texts that their names are given. -/
def refill (text : List FileName → String) (place : List FileName) : FileTree → FileTree
  | .file _ => .file (text place).toUTF8
  | .dir entries => .dir (refillEntries text place entries)

/-- The same for the entries of a directory. -/
def refillEntries (text : List FileName → String) (place : List FileName) :
    List (FileName × FileTree) → List (FileName × FileTree)
  | [] => []
  | (n, t) :: r => (n, t.refill text (place ++ [n])) :: refillEntries text place r

end

variable {text : List FileName → String} {place : List FileName}

@[simp] theorem refill_file (content : ByteArray) :
    (file content).refill text place = file (text place).toUTF8 := by
  rw [refill]

@[simp] theorem refill_dir (entries : List (FileName × FileTree)) :
    (dir entries).refill text place =
      dir (entries.map fun e => (e.1, e.2.refill text (place ++ [e.1]))) := by
  rw [refill]
  congr 1
  induction entries with
  | nil => simp [refillEntries]
  | cons e entries ih =>
    obtain ⟨n, t⟩ := e
    simp [refillEntries, ih]

@[simp] theorem isFile_refill (t : FileTree) : (t.refill text place).isFile = t.isFile := by
  cases t with
  | file content => simp [isFile]
  | dir entries => simp [isFile]

theorem lookup_map_refill (entries : List (FileName × FileTree)) (n : FileName) :
    (entries.map fun e => (e.1, e.2.refill text (place ++ [e.1]))).lookup n =
      (entries.lookup n).map (·.refill text (place ++ [n])) := by
  induction entries with
  | nil => rfl
  | cons e entries ih =>
    obtain ⟨m, t⟩ := e
    rw [List.map_cons, List.lookup_cons, List.lookup_cons, ih]
    by_cases h : n = m
    · subst h
      simp
    · rw [beq_false_of_ne h]

theorem get?_refill (t : FileTree) (names : List FileName) :
    (t.refill text place).get? names = (t.get? names).map (·.refill text (place ++ names)) := by
  induction names generalizing t place with
  | nil => simp
  | cons n names ih =>
    cases t with
    | file content => simp
    | dir entries =>
      rw [refill_dir, get?_dir_cons, get?_dir_cons, lookup_map_refill]
      cases entries.lookup n with
      | none => rfl
      | some t =>
        rw [Option.map_some, Option.bind_some, Option.bind_some, ih, List.append_assoc]
        rfl

theorem sameShape_refill (t : FileTree) : t.SameShape (t.refill text place) := by
  intro names
  rw [get?_refill, Option.map_map]
  congr 1
  funext sub
  exact (isFile_refill sub).symm

theorem WellNamed.refill {ok : FileName → Prop} {t : FileTree} (h : t.WellNamed ok) :
    (t.refill text place).WellNamed ok := by
  induction h generalizing place with
  | file content =>
    rw [refill_file]
    exact .file _
  | @dir entries distinct names _ ih =>
    rw [refill_dir]
    refine .dir (by simpa [Function.comp_def] using distinct) ?_ ?_
    · intro e he
      obtain ⟨e', he', rfl⟩ := List.mem_map.1 he
      exact names e' he'
    · intro e he
      obtain ⟨e', he', rfl⟩ := List.mem_map.1 he
      exact ih e' he'

/-- A file that is refilled holds the text it is given. -/
theorem textAt?_refill {t : FileTree} {names : List String} {content : ByteArray}
    (h : t.get? (names.map .text) = some (.file content)) :
    (t.refill text place).textAt? names = some (text (place ++ names.map .text)) := by
  rw [textAt?, get?_refill, h, Option.map_some, refill_file]
  exact fromUTF8?_toUTF8 _

end FileTree

namespace Disk

/-- Two disks that differ at most in what their files hold. -/
structure SameShape (d d' : Disk) : Prop where
  top : d.top.SameShape d'.top
  workingDir : d'.workingDir = d.workingDir

theorem SameShape.refl (d : Disk) : d.SameShape d := ⟨fun _ => rfl, rfl⟩

theorem walk_congr {top top' : FileTree} (h : top.SameShape top') (place : List FileName)
    (steps : List String) : walk top' place steps = walk top place steps := by
  induction steps generalizing place with
  | nil => rfl
  | cons step steps ih =>
    rw [walk, walk]
    cases hplace : top.get? place with
    | none => rw [h.get?_eq_none hplace]
    | some t =>
      cases t with
      | file content =>
        obtain ⟨content', hplace'⟩ := h.exists_file hplace
        rw [hplace']
      | dir entries =>
        obtain ⟨entries', hplace'⟩ := h.exists_dir hplace
        rw [hplace']
        simp only [(h.of_get? hplace hplace').isSome_lookup, ih]

variable {d d' : Disk}

/-- A path leads to the same place. -/
theorem SameShape.place_eq (h : d.SameShape d') (path : String) : d'.place path = d.place path := by
  rw [place, place, start, start, h.workingDir, walk_congr h.top]

/-- A path leads to trees of the same shape. -/
theorem SameShape.of_get (h : d.SameShape d') {path : String} {t t' : FileTree}
    (ht : d.get path = .ok t) (ht' : d'.get path = .ok t') : t.SameShape t' := by
  obtain ⟨place, hplace, hget⟩ := get_eq_ok_iff.1 ht
  obtain ⟨place', hplace', hget'⟩ := get_eq_ok_iff.1 ht'
  obtain rfl : place' = place := by
    rw [h.place_eq, hplace] at hplace'
    exact (Except.ok.inj hplace').symm
  exact h.top.of_get? hget hget'

/-- The disk whose files hold the texts that their places are given. -/
def refill (d : Disk) (text : List FileName → String) : Disk := ⟨d.top.refill text [], d.workingDir⟩

theorem sameShape_refill (d : Disk) (text : List FileName → String) :
    d.SameShape (d.refill text) :=
  ⟨d.top.sameShape_refill, rfl⟩

variable {text : List FileName → String} {path : String}

theorem get_refill {place : List FileName} {t : FileTree} (hplace : d.place path = .ok place)
    (hget : d.top.get? place = some t) :
    (d.refill text).get path = .ok (t.refill text place) := by
  refine get_eq_ok_iff.2 ⟨place, ?_, ?_⟩
  · rw [(d.sameShape_refill text).place_eq, hplace]
  · rw [refill, FileTree.get?_refill, hget, Option.map_some, List.nil_append]

/-- What is read at the end of a path is the text that its place is given. -/
theorem readText_refill {s : String} (h : (d.refill text).readText path = .ok s) :
    ∃ place, d.place path = .ok place ∧ s = text place := by
  obtain ⟨t, hget, hread⟩ := bind_eq_ok_iff.1 h
  obtain ⟨place, hplace, hsub⟩ := get_eq_ok_iff.1 hget
  rw [(d.sameShape_refill text).place_eq] at hplace
  refine ⟨place, hplace, ?_⟩
  rw [refill, FileTree.get?_refill, List.nil_append] at hsub
  obtain ⟨sub, -, rfl⟩ := Option.map_eq_some_iff.1 hsub
  cases sub with
  | dir entries => simp at hread
  | file content =>
    simp only [FileTree.refill_file, fromUTF8?_toUTF8] at hread
    exact (Except.ok.inj hread).symm

end Disk

end StackAudit
