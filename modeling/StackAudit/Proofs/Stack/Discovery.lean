import StackAudit.Proofs.Stack.Walk
import StackAudit.Proofs.StackPath.Canonical
import StackAudit.Proofs.StackPath.Relative

/-!
# No document file is left out or read twice

The directories that are found are the topmost stacks. The files of a stack are searched without
regard to stacks below it, and so the two walks fit together: each document file at or below the
root is listed for exactly one directory.
-/
namespace StackAudit

namespace FileTree

variable {t sub : FileTree} {names above below : List String} {f : Format}

theorem hasDocument_append (hsub : t.get? (above.map .text) = some sub) (hne : below ≠ []) :
    t.HasDocument (above ++ below) f ↔ sub.HasDocument below f := by
  obtain ⟨init, last, rfl⟩ : ∃ init last, below = init ++ [last] :=
    ⟨_, _, (List.dropLast_append_getLast hne).symm⟩
  have hget : t.get? ((above ++ (init ++ [last])).map .text) =
      sub.get? ((init ++ [last]).map .text) := by
    rw [List.map_append, get?_append, hsub, Option.bind_some]
  simp only [HasDocument, hget]
  constructor
  · rintro ⟨init', name, content, hsplit, hname, hcontent⟩
    rw [← List.append_assoc] at hsplit
    obtain ⟨-, hlast⟩ := List.append_inj' hsplit rfl
    exact ⟨init, name, content, by rw [hlast], hname, hcontent⟩
  · rintro ⟨init', name, content, hsplit, hname, hcontent⟩
    exact ⟨above ++ init', name, content, by rw [hsplit, List.append_assoc], hname, hcontent⟩

/-- A stack is a directory. -/
theorem IsStackAt.exists_dir (h : t.IsStackAt names) :
    ∃ entries, t.get? (names.map .text) = some (.dir entries) := by
  obtain ⟨name, f, -, -, content, -, -, hget⟩ := h
  rw [List.map_append, get?_append] at hget
  obtain ⟨sub, hsub, hget⟩ := Option.bind_eq_some_iff.1 hget
  cases sub with
  | file content => simp at hget
  | dir entries => exact ⟨entries, hsub⟩

/-- A stack is topmost or below one that is. -/
theorem IsStackAt.exists_topmost {names : List String} (h : t.IsStackAt names) :
    ∃ above, above <+: names ∧ t.IsTopmostStack above := by
  by_cases htop : t.IsTopmostStack names
  · exact ⟨names, List.prefix_rfl, htop⟩
  · obtain ⟨above, habove, hstack, hne⟩ :
        ∃ above, above <+: names ∧ t.IsStackAt above ∧ above ≠ names := by
      simpa [IsTopmostStack, h] using htop
    have hlt : above.length < names.length :=
      Nat.lt_of_le_of_ne habove.length_le fun heq => hne (habove.eq_of_length heq)
    obtain ⟨topmost, hle, htop⟩ := hstack.exists_topmost
    exact ⟨topmost, hle.trans habove, htop⟩
termination_by names.length

/-- A document file is below a topmost stack, -/
theorem HasDocument.exists_topmost (h : t.HasDocument names f) :
    ∃ above below, names = above ++ below ∧ below ≠ [] ∧ t.IsTopmostStack above := by
  obtain ⟨dir, name, content, rfl, -⟩ := id h
  have hstack : t.IsStackAt dir := ⟨name, f, h⟩
  obtain ⟨above, ⟨rest, rfl⟩, htop⟩ := hstack.exists_topmost
  exact ⟨above, rest ++ [name], List.append_assoc _ _ _, by simp, htop⟩

/-- and below no other. -/
theorem IsTopmostStack.unique {above' : List String} (h : t.IsTopmostStack above)
    (h' : t.IsTopmostStack above') (habove : above <+: names) (habove' : above' <+: names) :
    above = above' := by
  rcases List.prefix_or_prefix_of_prefix habove habove' with hle | hle
  · exact h'.2 above hle h.1
  · exact (h.2 above' hle h'.1).symm

/-- The files are the document files of the tree, each listed once, by what leads to it. -/
def ListedBy (t : FileTree) (files : List (StackPath × Format)) : Prop :=
  ∃ docs : List (List String × Format), docs.Nodup ∧
    (∀ names f, (names, f) ∈ docs ↔ t.HasDocument names f) ∧
    files.Perm (docs.map fun doc => (.ofText ("/".intercalate doc.1), doc.2))

end FileTree

namespace Disk

/-- The files of the stack in a directory list the document file at the end of a path. -/
def Lists (d : Disk) (dir path : String) (f : Format) : Prop :=
  ∃ below files, path = joinNames dir below ∧ (∀ s ∈ below, IsEntryName s) ∧
    d.stackFiles dir = .ok files ∧ (.ofText ("/".intercalate below), f) ∈ files

variable {d : Disk} {entries : List (FileName × FileTree)}

/-- The files of a stack are listed with paths relative to it. -/
theorem isCanonical_of_mem_stackFiles {dir : String} {files : List (StackPath × Format)}
    (h : d.stackFiles dir = .ok files) {file : StackPath × Format} (hfile : file ∈ files) :
    file.1.IsCanonical := by
  obtain ⟨t, -, h⟩ := bind_eq_ok_iff.1 h
  suffices ∃ path, file.1 = StackPath.relativeTo dir path by
    obtain ⟨path, hpath⟩ := this
    exact hpath ▸ StackPath.isCanonical_relativeTo dir path
  dsimp only at h
  split at h
  · obtain rfl := Except.ok.inj h
    rw [(List.mergeSort_perm _ _).mem_iff] at hfile
    obtain ⟨f, -, rfl⟩ := Option.map_eq_some_iff.1 (Option.mem_toList.1 hfile)
    exact ⟨_, rfl⟩
  · obtain rfl := Except.ok.inj h
    rw [(List.mergeSort_perm _ _).mem_iff] at hfile
    obtain ⟨doc, -, rfl⟩ := List.mem_map.1 hfile
    exact ⟨_, rfl⟩

theorem stackFiles_dir {dir : String} (hdir : d.get dir = .ok (.dir entries)) :
    d.stackFiles dir = .ok ((((FileTree.dir entries).documents []).map fun doc =>
      (StackPath.relativeTo dir (joinNames dir doc.1), doc.2)).mergeSort
        fun a b => a.1.text ≤ b.1.text) := by
  rw [stackFiles, hdir]
  rfl

/-- The files of a stack are all document files below its directory. -/
theorem exists_stackFiles {dir : String} (hdir : d.get dir = .ok (.dir entries))
    (hnames : (FileTree.dir entries).WellNamed FileName.IsText) :
    ∃ files, d.stackFiles dir = .ok files ∧ (FileTree.dir entries).ListedBy files := by
  have hpath : ∀ doc ∈ (FileTree.dir entries).documents [],
      StackPath.relativeTo dir (joinNames dir doc.1) = .ofText ("/".intercalate doc.1) := by
    rintro ⟨names, f⟩ hdoc
    have h := (FileTree.mem_documents_nil hnames).1 hdoc
    exact StackPath.relativeTo_joinNames dir (h.isEntryName hnames)
  refine ⟨_, stackFiles_dir hdir, (FileTree.dir entries).documents [],
    FileTree.nodup_documents hnames [], fun _ _ => FileTree.mem_documents_nil hnames,
    (List.mergeSort_perm _ _).trans (.of_eq (List.map_congr_left ?_))⟩
  intro doc hdoc
  rw [← hpath doc hdoc]

theorem discover_dir {root : String} (hroot : d.get root = .ok (.dir entries)) :
    d.discover root =
      .ok ((((FileTree.dir entries).stackPaths []).mergeSort namesLe).map (joinNames root)) := by
  rw [discover, hroot]
  rfl

/-- The stacks that are found, by the names that lead to them. -/
theorem exists_discover {root : String} (hroot : d.get root = .ok (.dir entries))
    (hnames : (FileTree.dir entries).WellNamed FileName.IsText) :
    ∃ tops : List (List String), d.discover root = .ok (tops.map (joinNames root)) ∧
      tops.Nodup ∧ ∀ names, names ∈ tops ↔ (FileTree.dir entries).IsTopmostStack names := by
  have hperm := List.mergeSort_perm ((FileTree.dir entries).stackPaths []) namesLe
  refine ⟨_, discover_dir hroot, ?_, fun names => ?_⟩
  · exact hperm.nodup_iff.2 (FileTree.nodup_stackPaths hnames [])
  · rw [hperm.mem_iff, FileTree.mem_stackPaths_iff hnames]
    simp

section

variable {root : String} (hroot : d.get root = .ok (.dir entries))
include hroot

/-- The directory of a stack stands at the end of its path. -/
theorem get_of_isStackAt (hnames : (FileTree.dir entries).WellNamed FileName.IsValid)
    {names : List String} (h : (FileTree.dir entries).IsStackAt names) :
    (∀ s ∈ names, IsEntryName s) ∧ ∃ entries',
      (FileTree.dir entries).get? (names.map .text) = some (.dir entries') ∧
        d.get (joinNames root names) = .ok (.dir entries') := by
  obtain ⟨entries', hget⟩ := h.exists_dir
  have hentry := hnames.isEntryName hget
  exact ⟨hentry, entries', hget, get_joinNames hroot hentry hget⟩

variable (hnames : (FileTree.dir entries).WellNamed FileName.IsText)
include hnames

/-- A stack lists each document file below it. -/
theorem lists_of_hasDocument {above below : List String} {f : Format} (hbelow : below ≠ [])
    (hstack : (FileTree.dir entries).IsStackAt above)
    (hdoc : (FileTree.dir entries).HasDocument (above ++ below) f) :
    d.Lists (joinNames root above) (joinNames root (above ++ below)) f := by
  have hvalid := hnames.mono fun _ => FileName.IsText.isValid
  obtain ⟨-, entries', hsub, hget⟩ := get_of_isStackAt hroot hvalid hstack
  obtain ⟨files, hfiles, docs, -, hdocs, hperm⟩ := exists_stackFiles hget (hnames.of_get? hsub).1
  have hbelowdoc := (hdocs below f).2 ((FileTree.hasDocument_append hsub hbelow).1 hdoc)
  have hpath := hdoc.isEntryName hnames
  exact ⟨below, files, joinNames_append root above below,
    fun s hs => hpath s (List.mem_append_right _ hs), hfiles,
    hperm.mem_iff.2 (List.mem_map.2 ⟨(below, f), hbelowdoc, rfl⟩)⟩

/-- No two topmost stacks list one document file. -/
theorem eq_of_lists {above above' names : List String} {f : Format}
    (htop : (FileTree.dir entries).IsTopmostStack above)
    (htop' : (FileTree.dir entries).IsTopmostStack above') (habove : above <+: names)
    (hpath : ∀ s ∈ names, IsEntryName s)
    (hlists : d.Lists (joinNames root above') (joinNames root names) f) : above' = above := by
  obtain ⟨below', -, hsame, hbelow', -⟩ := hlists
  rw [← joinNames_append] at hsame
  have habove' := (get_of_isStackAt hroot (hnames.mono fun _ => FileName.IsText.isValid) htop'.1).1
  have hnames' : names = above' ++ below' :=
    StackPath.joinNames_injective hpath
      (fun s hs => (List.mem_append.1 hs).elim (habove' s) (hbelow' s)) hsame
  exact htop'.unique htop ⟨below', hnames'.symm⟩ habove

/-- The directories that are found are the topmost stacks, each found once. Each of them lists all
document files below it, and of all of them exactly one lists a given document file. -/
theorem discover_topmost :
    ∃ dirs, d.discover root = .ok dirs ∧ dirs.Nodup ∧
      (∀ dir, dir ∈ dirs ↔
        ∃ names, (FileTree.dir entries).IsTopmostStack names ∧ dir = joinNames root names) ∧
      (∀ dir ∈ dirs, ∃ sub files, d.get dir = .ok sub ∧ d.stackFiles dir = .ok files ∧
        sub.ListedBy files) ∧
      ∀ names f, (FileTree.dir entries).HasDocument names f →
        ∃! dir, dir ∈ dirs ∧ d.Lists dir (joinNames root names) f := by
  have hvalid := hnames.mono fun _ => FileName.IsText.isValid
  obtain ⟨tops, hdirs, hnodup, htops⟩ := exists_discover hroot hnames
  have hdir : ∀ names ∈ tops, _ := fun names hmem =>
    get_of_isStackAt hroot hvalid ((htops names).1 hmem).1
  refine ⟨_, hdirs, ?_, fun dir => ?_, fun dir hmem => ?_, fun names f hdoc => ?_⟩
  · refine List.Nodup.map_on (fun names hmem names' hmem' h => ?_) hnodup
    exact StackPath.joinNames_injective (hdir names hmem).1
      (hdir names' hmem').1 h
  · simp only [List.mem_map, htops, eq_comm]
  · obtain ⟨names, hnames', rfl⟩ := List.mem_map.1 hmem
    obtain ⟨-, entries', hsub, hget⟩ := hdir names hnames'
    obtain ⟨files, hfiles, hlisted⟩ := exists_stackFiles hget (hnames.of_get? hsub).1
    exact ⟨_, files, hget, hfiles, hlisted⟩
  · obtain ⟨above, below, rfl, hbelow, htop⟩ := hdoc.exists_topmost
    have hlists := lists_of_hasDocument hroot hnames hbelow htop.1 hdoc
    refine ⟨joinNames root above, ⟨List.mem_map_of_mem ((htops above).2 htop), hlists⟩, ?_⟩
    rintro dir ⟨hmem, hlists'⟩
    obtain ⟨above', habove', rfl⟩ := List.mem_map.1 hmem
    obtain ⟨-, -, content, -, -, hcontent⟩ := hdoc
    rw [eq_of_lists hroot hnames htop ((htops above').1 habove') (List.prefix_append _ _)
      (hvalid.isEntryName hcontent) hlists']

end

/-- A stack with a document file in a directory of its own. -/
def nestedStack : List (FileName × FileTree) :=
  [(.text "Main.YAML", .file .empty), (.text "old", .dir [(.text "b\\c.json", .file .empty)])]

/-- Two stacks at different depths. -/
def nested : List (FileName × FileTree) :=
  [(.text "group", .dir [(.text "api", .dir nestedStack), (.text "notes.txt", .file .empty)]),
   (.text "zone", .dir [(.text "x.yml", .file .empty)])]

def nestedDisk : Disk := ⟨.dir [(.text "srv", .dir nested)], []⟩

theorem wellNamed_nested : (FileTree.dir nested).WellNamed FileName.IsText := by
  have hfile : (FileTree.file .empty).WellNamed FileName.IsText := .file _
  have hold : (FileTree.dir [(.text "b\\c.json", .file .empty)]).WellNamed FileName.IsText :=
    .dir (by decide) (by decide) (by simp [hfile])
  have hstack : (FileTree.dir nestedStack).WellNamed FileName.IsText :=
    .dir (by decide) (by decide) (by simp [nestedStack, hfile, hold])
  have hgroup : (FileTree.dir [(.text "api", .dir nestedStack),
      (.text "notes.txt", .file .empty)]).WellNamed FileName.IsText :=
    .dir (by decide) (by decide) (by simp [hfile, hstack])
  have hzone : (FileTree.dir [(.text "x.yml", .file .empty)]).WellNamed FileName.IsText :=
    .dir (by decide) (by decide) (by simp [hfile])
  exact .dir (by decide) (by decide) (by simp [nested, hgroup, hzone])

theorem discover_topmost_nested :
    nestedDisk.get "/srv/" = .ok (.dir nested) ∧
      ∃ dirs, nestedDisk.discover "/srv/" = .ok dirs ∧
        ∃! dir, dir ∈ dirs ∧
          nestedDisk.Lists dir (joinNames "/srv/" ["group", "api", "old", "b\\c.json"]) .json := by
  have hroot : nestedDisk.get "/srv/" = .ok (.dir nested) := rfl
  obtain ⟨dirs, hdirs, -, -, -, hlisted⟩ := discover_topmost hroot wellNamed_nested
  have hname : IsDocumentName "b\\c.json" .json := ⟨"b\\c", "json", by decide, by decide, rfl⟩
  exact ⟨hroot, dirs, hdirs,
    hlisted _ _ ⟨["group", "api", "old"], "b\\c.json", .empty, rfl, hname, rfl⟩⟩

end Disk

end StackAudit
