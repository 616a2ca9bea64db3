import StackAudit.FileTree.Disk
import StackAudit.Proofs.Except
import StackAudit.Proofs.FileTree.Basic
import StackAudit.Proofs.Text.Lines
import StackAudit.StackPath.Relative

/-!
# Paths below a path

Names of entries are put behind a path one by one, with a slash before each unless there is one. On
a disk the path then leads on to the entry; taken apart, it has the names as its last pieces. Both
follow from one fact: up to a slash at its end, the path stands before what is put behind it.
-/
namespace StackAudit

theorem splitOn_append_slash (q r : List Char) :
    (q ++ '/' :: r).splitOn '/' = q.splitOn '/' ++ r.splitOn '/' :=
  List.splitOnP_append_cons q r (by simp)

theorem IsEntryName.splitOn {s : String} (h : IsEntryName s) :
    s.toList.splitOn '/' = [s.toList] :=
  List.splitOn_eq_singleton h.slash_notMem

theorem IsEntryName.isVoid {s : String} (h : IsEntryName s) :
    StackPath.isVoid s.toList = false := by
  have hempty : s.toList ≠ [] := fun he => h.ne_empty (String.toList_inj.1 he)
  have hdot : s.toList ≠ ['.'] := fun he => h.ne_dot (String.toList_inj.1 he)
  simp [StackPath.isVoid, hempty, hdot]

namespace Disk

@[simp] theorem joinNames_nil (path : String) : joinNames path [] = path := rfl

@[simp] theorem joinNames_cons (path s : String) (names : List String) :
    joinNames path (s :: names) = joinNames (joinPath path s) names := rfl

theorem joinNames_append (path : String) (names more : List String) :
    joinNames path (names ++ more) = joinNames (joinNames path names) more :=
  List.foldl_append

theorem isAbsolute_eq (path : String) :
    isAbsolute path = (path.toList.head? == some '/') := by
  rw [isAbsolute, Text.startsWith, Text.behind?, Option.isSome_map,
    List.isSome_isPrefixOf?_eq_isPrefixOf]
  cases path.toList with
  | nil => rfl
  | cons c cs => simp [List.isPrefixOf, Bool.beq_comm]

theorem endsWith_slash_iff (path : String) :
    Text.endsWith "/" path = true ↔ ∃ q, path.toList = q ++ ['/'] := by
  rw [Text.endsWith, Text.before?, Option.isSome_map, Option.isSome_iff_exists]
  simp only [List.isPrefixOf?_eq_some_iff_append_eq]
  constructor
  · rintro ⟨q, hq⟩
    exact ⟨q.reverse, by simpa using (congrArg List.reverse hq).symm⟩
  · rintro ⟨q, hq⟩
    exact ⟨q.reverse, by simp [hq]⟩

/-- The name of an entry does not start at the top. -/
theorem isAbsolute_eq_false {s : String} (hs : IsEntryName s) : isAbsolute s = false := by
  have hslash : s.toList.head? ≠ some '/' := fun h => hs.slash_notMem (List.mem_of_head? h)
  rw [isAbsolute_eq]
  simpa using hslash

/-- Nothing is put before a path where there is none. -/
theorem joinPath_empty (s : String) : joinPath "" s = s := by
  simp [joinPath]

/-- Up to a slash at its end, a path stands before the slash and the path that are put behind it. -/
theorem exists_stem {path : String} (hpath : path ≠ "") :
    ∃ q, (path.toList = q ∧ q ≠ [] ∨ path.toList = q ++ ['/']) ∧
      ∀ s, isAbsolute s = false → (joinPath path s).toList = q ++ '/' :: s.toList := by
  by_cases hend : Text.endsWith "/" path = true
  · obtain ⟨q, hq⟩ := (endsWith_slash_iff path).1 hend
    refine ⟨q, .inr hq, fun s hs => ?_⟩
    rw [joinPath, hs, if_neg (by simp), if_pos (.inr hend), String.toList_append, hq]
    simp
  · refine ⟨path.toList, .inl ⟨rfl, fun h => hpath (String.toList_inj.1 h)⟩, fun s hs => ?_⟩
    rw [joinPath, hs, if_neg (by simp), if_neg (by simp [hpath, hend])]
    simp

theorem joinPath_ne_empty {path s : String} (hpath : path ≠ "") (hs : isAbsolute s = false) :
    joinPath path s ≠ "" := by
  obtain ⟨q, -, hjoin⟩ := exists_stem hpath
  intro h
  have := hjoin s hs
  simp [h] at this

/-- The start of a path is that of every path below it. -/
theorem start_joinPath (d : Disk) {path s : String} (hpath : path ≠ "")
    (hs : isAbsolute s = false) : d.start (joinPath path s) = d.start path := by
  obtain ⟨q, hq, hjoin⟩ := exists_stem hpath
  have habsolute : isAbsolute (joinPath path s) = isAbsolute path := by
    rw [isAbsolute_eq, isAbsolute_eq, hjoin s hs]
    rcases hq with ⟨hq, hne⟩ | hq
    · cases q <;> simp_all
    · rw [hq]
      cases q <;> simp
  rw [start, start, habsolute]

/-- The steps of a path are those of every path below it, up to an empty one at the end. -/
theorem exists_steps {path : String} (hpath : path ≠ "") :
    ∃ steps, (Text.pieces '/' path = steps ∨ Text.pieces '/' path = steps ++ [""]) ∧
      ∀ s, isAbsolute s = false →
        Text.pieces '/' (joinPath path s) = steps ++ Text.pieces '/' s := by
  obtain ⟨q, hq, hjoin⟩ := exists_stem hpath
  refine ⟨(q.splitOn '/').map String.ofList, ?_, fun s hs => ?_⟩
  · rcases hq with ⟨hq, -⟩ | hq
    · exact .inl (by rw [Text.pieces, hq])
    · exact .inr (by rw [Text.pieces, hq, splitOn_append_slash]; simp)
  · rw [Text.pieces, hjoin s hs, splitOn_append_slash, List.map_append, Text.pieces]

theorem walk_append (top : FileTree) (steps more : List String) (place : List FileName) :
    walk top place (steps ++ more) =
      walk top place steps >>= (walk top · more) := by
  induction steps generalizing place with
  | nil => rfl
  | cons step steps ih =>
    rw [List.cons_append, walk, walk]
    split
    · rfl
    · rfl
    · split_ifs
      · exact ih _
      · exact ih _
      · exact ih _
      · rfl

/-- An empty step does not change the place. -/
theorem eq_of_walk_empty {top : FileTree} {place place' : List FileName}
    (h : walk top place [""] = .ok place') : place' = place := by
  rw [walk] at h
  split at h
  · cases h
  · cases h
  · rw [if_pos (.inl rfl)] at h
    exact (Except.ok.inj h).symm

variable {d : Disk}

theorem get_eq_ok_iff {path : String} {t : FileTree} :
    d.get path = .ok t ↔ ∃ place, d.place path = .ok place ∧ d.top.get? place = some t := by
  unfold get
  cases d.place path with
  | error e => simp [bind, Except.bind]
  | ok place => cases h : d.top.get? place <;> simp [bind, Except.bind, h]

/-- A path below a path is followed from the place to which that one leads. -/
theorem place_joinPath {path s : String} {place : List FileName}
    (hplace : d.place path = .ok place) (hs : isAbsolute s = false) :
    d.place (joinPath path s) = walk d.top place (Text.pieces '/' s) := by
  have hpath : path ≠ "" := by
    rintro rfl
    cases hplace
  obtain ⟨steps, hsteps, hjoin⟩ := exists_steps hpath
  rw [Disk.place, if_neg hpath] at hplace
  have hstem : walk d.top (d.start path) steps = .ok place := by
    rcases hsteps with hsteps | hsteps
    · rwa [hsteps] at hplace
    · rw [hsteps, walk_append] at hplace
      obtain ⟨place', hwalk, hempty⟩ := bind_eq_ok_iff.1 hplace
      rwa [eq_of_walk_empty hempty]
  rw [Disk.place, if_neg (joinPath_ne_empty hpath hs), start_joinPath d hpath hs, hjoin s hs,
    walk_append, hstem]
  rfl

/-- The names of entries are steps to what stands at their end. -/
theorem walk_names {place : List FileName} {names : List String} {t sub : FileTree}
    (h : d.top.get? place = some t) (hnames : ∀ s ∈ names, IsEntryName s)
    (hsub : t.get? (names.map .text) = some sub) :
    walk d.top place names = .ok (place ++ names.map .text) := by
  induction names generalizing place t with
  | nil => simp [walk]
  | cons s names ih =>
    obtain ⟨hs, hnames⟩ := List.forall_mem_cons.1 hnames
    cases t with
    | file content => simp at hsub
    | dir entries =>
      rw [List.map_cons, FileTree.get?_dir_cons] at hsub
      obtain ⟨t, hentry, hsub⟩ := Option.bind_eq_some_iff.1 hsub
      have hnext : d.top.get? (place ++ [.text s]) = some t := by
        rw [FileTree.get?_append, h]
        simp [hentry]
      have hstep : walk d.top place (s :: names) = walk d.top (place ++ [.text s]) names := by
        simp [walk, h, hs.ne_empty, hs.ne_dot, hs.ne_dots, hentry]
      rw [hstep, ih hnext hnames hsub]
      simp

/-- A path leads on to the entries of the directory at its end. -/
theorem get_joinPath {path s : String} {entries : List (FileName × FileTree)} {t : FileTree}
    (h : d.get path = .ok (.dir entries)) (hs : IsEntryName s)
    (hentry : entries.lookup (.text s) = some t) : d.get (joinPath path s) = .ok t := by
  obtain ⟨place, hplace, hget⟩ := get_eq_ok_iff.1 h
  have hsub : (FileTree.dir entries).get? ([s].map .text) = some t := by simp [hentry]
  refine get_eq_ok_iff.2 ⟨place ++ [s].map .text, ?_, ?_⟩
  · rw [place_joinPath hplace (isAbsolute_eq_false hs), Text.pieces_of_notMem hs.slash_notMem]
    exact walk_names hget (by simpa using hs) hsub
  · rw [FileTree.get?_append, hget]
    exact hsub

/-- A path leads on to all that is below the directory at its end. -/
theorem get_joinNames {path : String} {names : List String} {t sub : FileTree}
    (h : d.get path = .ok t) (hnames : ∀ s ∈ names, IsEntryName s)
    (hsub : t.get? (names.map .text) = some sub) : d.get (joinNames path names) = .ok sub := by
  induction names generalizing path t with
  | nil =>
    obtain rfl : t = sub := Option.some.inj hsub
    exact h
  | cons s names ih =>
    obtain ⟨hs, hnames⟩ := List.forall_mem_cons.1 hnames
    cases t with
    | file content => simp at hsub
    | dir entries =>
      obtain ⟨t, hentry, hsub⟩ := Option.bind_eq_some_iff.1 hsub
      exact ih (get_joinPath h hs hentry) hnames hsub

end Disk
end StackAudit
