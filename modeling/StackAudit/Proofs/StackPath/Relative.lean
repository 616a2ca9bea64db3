import StackAudit.Proofs.FileTree.Paths

/-!
# Paths relative to a directory

Taken apart, a path below a directory has the pieces of the directory, void ones at its end apart,
and then the names that were put behind it. So these names are what remains when the directory is
stripped, and different names make different paths.
-/
namespace StackAudit.StackPath

/-- Whether a text starts with neither the root directory nor the current one. -/
def NoLead : List Char → Prop
  | [] => False
  | c :: q => c ≠ '/' ∧ (c = '.' → ∃ d r, q = d :: r ∧ d ≠ '/')

theorem ofChars_of_noLead {cs : List Char} (h : NoLead cs) :
    Parts.ofChars cs = ⟨.none, cs.splitOn '/'⟩ := by
  unfold Parts.ofChars
  split
  · exact absurd rfl h.1
  · obtain ⟨d, r, hr, -⟩ := h.2 rfl
    cases hr
  · obtain ⟨d, r, hr, hd⟩ := h.2 rfl
    exact absurd (List.cons.inj hr).1.symm hd
  · rfl

/-- The first piece of a text that does not start with a slash starts with the same character. -/
theorem exists_splitOn_cons {c : Char} (hc : c ≠ '/') (q : List Char) :
    ∃ p ps, (c :: q).splitOn '/' = (c :: p) :: ps ∧ q.splitOn '/' = p :: ps := by
  obtain ⟨p, ps, hq⟩ := List.exists_cons_of_ne_nil (List.splitOn_ne_nil '/' q)
  refine ⟨p, ps, ?_, hq⟩
  rw [List.splitOn] at hq ⊢
  rw [List.splitOnP_cons_eq_if_modifyHead, if_neg (by simpa using hc), hq, List.modifyHead_cons]

/-- A text without a lead starts with a piece that names something. -/
theorem named_ne_nil_of_noLead {cs : List Char} (h : NoLead cs) :
    (Parts.ofChars cs).named ≠ [] := by
  rw [ofChars_of_noLead h, Parts.named]
  suffices ∃ p ps, cs.splitOn '/' = p :: ps ∧ isVoid p = false by
    obtain ⟨p, ps, hcs, hvoid⟩ := this
    simp [hcs, hvoid]
  cases cs with
  | nil => exact h.elim
  | cons c q =>
    obtain ⟨p, ps, hcs, hq⟩ := exists_splitOn_cons h.1 q
    refine ⟨c :: p, ps, hcs, ?_⟩
    by_cases hdot : c = '.'
    · obtain ⟨d, r, rfl, hd⟩ := h.2 hdot
      obtain ⟨p', ps', hq', -⟩ := exists_splitOn_cons hd r
      obtain ⟨rfl, -⟩ := List.cons.inj (hq.symm.trans hq')
      simp [isVoid]
    · simp [isVoid, hdot]

/-- A lead is there or it is not. -/
theorem noLead_cases (cs : List Char) :
    cs = [] ∨ (∃ r, cs = '/' :: r) ∨ cs = ['.'] ∨ (∃ r, cs = '.' :: '/' :: r) ∨ NoLead cs := by
  rcases cs with _ | ⟨c, q⟩
  · exact .inl rfl
  by_cases hroot : c = '/'
  · exact .inr (.inl ⟨q, by rw [hroot]⟩)
  by_cases hdot : c = '.'
  · subst hdot
    rcases q with _ | ⟨d, r⟩
    · simp
    by_cases hd : d = '/'
    · simp [hd]
    · simp [NoLead, hd]
  · simp [NoLead, hroot, hdot]

/-- Taken apart behind a slash, a path keeps its lead and its pieces. -/
theorem exists_parts_append_slash (q : List Char) :
    ∃ lead ps, (∀ r, Parts.ofChars (q ++ '/' :: r) = ⟨lead, ps ++ r.splitOn '/'⟩) ∧
      (q ≠ [] → Parts.ofChars q = ⟨lead, ps⟩) := by
  obtain rfl | ⟨q, rfl⟩ | rfl | ⟨q, rfl⟩ | h := noLead_cases q
  · exact ⟨.root, [], by simp [Parts.ofChars]⟩
  · exact ⟨.root, q.splitOn '/', by simp [Parts.ofChars, splitOn_append_slash]⟩
  · refine ⟨.current, [[]], fun r => ?_, fun _ => rfl⟩
    simpa [Parts.ofChars] using splitOn_append_slash [] r
  · refine ⟨.current, ('/' :: q).splitOn '/', fun r => ?_, fun _ => rfl⟩
    simpa [Parts.ofChars] using splitOn_append_slash ('/' :: q) r
  · refine ⟨.none, q.splitOn '/', fun r => ?_, fun _ => ofChars_of_noLead h⟩
    rw [← splitOn_append_slash]
    apply ofChars_of_noLead
    cases q with
    | nil => exact h.elim
    | cons c q =>
      refine ⟨h.1, fun hdot => ?_⟩
      obtain ⟨d, r', rfl, hd⟩ := h.2 hdot
      exact ⟨d, _, rfl, hd⟩

/-- Where there is no path, the name of an entry is the only piece. -/
theorem ofChars_joinPath_empty {s : String} (hs : IsEntryName s) :
    Parts.ofChars (Disk.joinPath "" s).toList = ⟨.none, [s.toList]⟩ := by
  have hlead : NoLead s.toList := by
    obtain hnil | ⟨r, hr⟩ | hdot | ⟨r, hr⟩ | h := noLead_cases s.toList
    · exact absurd (String.toList_inj.1 hnil) hs.ne_empty
    · exact absurd (by simp [hr]) hs.slash_notMem
    · exact absurd (String.toList_inj.1 hdot) hs.ne_dot
    · exact absurd (by simp [hr]) hs.slash_notMem
    · exact h
  rw [Disk.joinPath_empty, ofChars_of_noLead hlead, hs.splitOn]

/-- A path below a path has the name as its last piece. The path itself has the pieces before it, up
to an empty one at the end. -/
theorem exists_parts (path : String) :
    ∃ lead ps, (Parts.ofChars path.toList = ⟨lead, ps⟩ ∨
        Parts.ofChars path.toList = ⟨lead, ps ++ [[]]⟩) ∧
      ∀ s, IsEntryName s →
        Parts.ofChars (Disk.joinPath path s).toList = ⟨lead, ps ++ [s.toList]⟩ := by
  by_cases hpath : path = ""
  · subst hpath
    exact ⟨.none, [], .inr (by simp [Parts.ofChars]), fun s hs => ofChars_joinPath_empty hs⟩
  obtain ⟨q, hq, hjoin⟩ := Disk.exists_stem hpath
  obtain ⟨lead, ps, hslash, hparts⟩ := exists_parts_append_slash q
  refine ⟨lead, ps, ?_, fun s hs => ?_⟩
  · rcases hq with ⟨hq, hne⟩ | hq
    · exact .inl (by rw [hq, hparts hne])
    · exact .inr (by rw [hq, hslash]; simp)
  · rw [hjoin s (Disk.isAbsolute_eq_false hs), hslash, hs.splitOn]

/-- A path below a path has all the names as its last pieces. -/
theorem ofChars_joinNames {path : String} {lead : Lead} {ps : List (List Char)} {s : String}
    {names : List String}
    (hparts : ∀ s, IsEntryName s →
      Parts.ofChars (Disk.joinPath path s).toList = ⟨lead, ps ++ [s.toList]⟩)
    (hs : IsEntryName s) (hnames : ∀ s ∈ names, IsEntryName s) :
    Parts.ofChars (Disk.joinNames path (s :: names)).toList =
      ⟨lead, ps ++ (s :: names).map String.toList⟩ := by
  induction names generalizing path ps s with
  | nil => simpa using hparts s hs
  | cons s' names ih =>
    obtain ⟨hs', hnames⟩ := List.forall_mem_cons.1 hnames
    obtain ⟨lead', ps', hself, hbelow⟩ := exists_parts (Disk.joinPath path s)
    -- a name is not empty, so the path so far does not end with a slash
    obtain ⟨rfl, rfl⟩ : lead' = lead ∧ ps' = ps ++ [s.toList] := by
      rw [hparts s hs] at hself
      have hvoid := hs.isVoid
      rcases hself with hself | hself <;> simp_all [isVoid]
    simpa using ih hbelow hs' hnames

theorem stripPieces_named (ps : List (List Char)) (rest : List (List Char)) :
    ∃ voids, (∀ p ∈ voids, isVoid p = true) ∧
      stripPieces (ps.filter fun p => !isVoid p) (ps ++ rest) = some (voids ++ rest) := by
  induction ps with
  | nil => exact ⟨[], by simp, rfl⟩
  | cons p ps ih =>
    obtain ⟨voids, hvoids, hstrip⟩ := ih
    cases hp : isVoid p with
    | true =>
      rw [List.filter_cons_of_neg (by simp [hp])]
      cases hbase : ps.filter fun p => !isVoid p with
      | nil =>
        refine ⟨p :: voids, List.forall_mem_cons.2 ⟨hp, hvoids⟩, ?_⟩
        rw [hbase] at hstrip
        simpa [stripPieces] using hstrip
      | cons b base =>
        refine ⟨voids, hvoids, ?_⟩
        rw [hbase] at hstrip
        simpa [stripPieces, hp] using hstrip
    | false =>
      refine ⟨voids, hvoids, ?_⟩
      simpa [hp, stripPieces, List.dropWhile] using hstrip

/-- What a path below a directory has before the names is the directory, void pieces apart. -/
theorem exists_parts_joinNames (dir : String) {names : List String}
    (hnames : ∀ s ∈ names, IsEntryName s) :
    ∃ ps, (Parts.ofChars dir.toList).named = ps.filter (fun p => !isVoid p) ∧
      Parts.ofChars (Disk.joinNames dir names).toList =
        ⟨(Parts.ofChars dir.toList).lead, ps ++ names.map String.toList⟩ := by
  cases names with
  | nil => exact ⟨(Parts.ofChars dir.toList).pieces, rfl, by simp⟩
  | cons s names =>
    obtain ⟨hs, hnames⟩ := List.forall_mem_cons.1 hnames
    obtain ⟨lead, ps, hself, hbelow⟩ := exists_parts dir
    refine ⟨ps, ?_, ?_⟩
    · rcases hself with hself | hself <;> simp [Parts.named, hself, isVoid]
    · rw [ofChars_joinNames hbelow hs hnames]
      rcases hself with hself | hself <;> rw [hself]

theorem isVoid_eq_false {names : List String} (hnames : ∀ s ∈ names, IsEntryName s) :
    ∀ p ∈ names.map String.toList, isVoid p = false := by
  intro p hp
  obtain ⟨s, hs, rfl⟩ := List.mem_map.1 hp
  exact (hnames s hs).isVoid

theorem dropWhile_isVoid {ps : List (List Char)} (h : ∀ p ∈ ps, isVoid p = false) :
    ps.dropWhile isVoid = ps := by
  cases ps with
  | nil => rfl
  | cons p ps => rw [List.dropWhile_cons_of_neg (by simp [h p (by simp)])]

theorem dropVoidEnd_eq_self {ps : List (List Char)} (h : ∀ p ∈ ps, isVoid p = false) :
    dropVoidEnd ps = ps := by
  rw [dropVoidEnd, dropWhile_isVoid (by simpa using h), List.reverse_reverse]

/-- Nothing is stripped of a path where there is no directory. -/
theorem strip?_joinNames_empty {names : List String} (hnames : ∀ s ∈ names, IsEntryName s) :
    strip? [] (Disk.joinNames "" names).toList = some (joinPieces (names.map String.toList)) := by
  have hlead : (Parts.ofChars []).lead = .none ∧ (Parts.ofChars []).named = [] := by decide
  simp only [strip?]
  rw [if_pos hlead]
  cases names with
  | nil => rfl
  | cons s names =>
    obtain ⟨hs, hrest⟩ := List.forall_mem_cons.1 hnames
    have hbelow : ∀ s, IsEntryName s →
        Parts.ofChars (Disk.joinPath "" s).toList = ⟨.none, [] ++ [s.toList]⟩ :=
      fun s hs => ofChars_joinPath_empty hs
    rw [ofChars_joinNames hbelow hs hrest]
    simp only [Lead.text, List.nil_append]
    rw [dropVoidEnd_eq_self (isVoid_eq_false hnames)]

/-- What is stripped of a path below a directory leaves the names. -/
theorem strip?_joinNames (dir : String) {names : List String}
    (hnames : ∀ s ∈ names, IsEntryName s) :
    strip? dir.toList (Disk.joinNames dir names).toList =
      some (joinPieces (names.map String.toList)) := by
  by_cases hdir : dir = ""
  · subst hdir
    exact strip?_joinNames_empty hnames
  obtain ⟨ps, hnamed, hparts⟩ := exists_parts_joinNames dir hnames
  obtain ⟨voids, hvoids, hstrip⟩ := stripPieces_named ps (names.map String.toList)
  have hpieces := isVoid_eq_false hnames
  have hlead : ¬((Parts.ofChars dir.toList).lead = .none ∧
      (Parts.ofChars dir.toList).named = []) := by
    rintro ⟨hlead, hempty⟩
    obtain hnil | ⟨r, hr⟩ | hdot | ⟨r, hr⟩ | h := noLead_cases dir.toList
    · exact hdir (String.toList_inj.1 hnil)
    · simp [hr, Parts.ofChars] at hlead
    · simp [hdot, Parts.ofChars] at hlead
    · simp [hr, Parts.ofChars] at hlead
    · exact named_ne_nil_of_noLead h hempty
  simp only [strip?]
  rw [if_neg hlead, hparts, if_pos rfl, hnamed, hstrip, Option.map_some,
    List.dropWhile_append_of_pos hvoids, dropWhile_isVoid hpieces, dropVoidEnd_eq_self hpieces]

/-- Relative to a directory, the path of what is below it is written with the names alone. -/
theorem relativeTo_joinNames (dir : String) {names : List String}
    (hnames : ∀ s ∈ names, IsEntryName s) :
    relativeTo dir (Disk.joinNames dir names) = ofText ("/".intercalate names) := by
  rw [relativeTo, strip?_joinNames dir hnames, Option.map_some, Option.getD_some]
  congr 1
  rw [← String.toList_inj, String.toList_intercalate, String.toList_ofList, joinPieces]
  rfl

/-- Behind the directories of a path stand the names. -/
theorem named_joinNames (dir : String) {names : List String}
    (hnames : ∀ s ∈ names, IsEntryName s) :
    (Parts.ofChars (Disk.joinNames dir names).toList).named =
      (Parts.ofChars dir.toList).named ++ names.map String.toList := by
  obtain ⟨ps, hnamed, hparts⟩ := exists_parts_joinNames dir hnames
  have hself : (names.map String.toList).filter (fun p => !isVoid p) = names.map String.toList :=
    List.filter_eq_self.2 fun p hp => by simp [isVoid_eq_false hnames p hp]
  rw [hparts, hnamed, Parts.named, List.filter_append, hself]

/-- Different names lead to different paths. -/
theorem joinNames_injective {dir : String} {names names' : List String}
    (hnames : ∀ s ∈ names, IsEntryName s) (hnames' : ∀ s ∈ names', IsEntryName s)
    (h : Disk.joinNames dir names = Disk.joinNames dir names') : names = names' := by
  have hparts := named_joinNames dir hnames
  rw [h, named_joinNames dir hnames'] at hparts
  have hmap := List.append_cancel_left hparts
  exact (List.map_injective_iff.2 (fun _ _ => String.toList_inj.1) hmap).symm

end StackAudit.StackPath
