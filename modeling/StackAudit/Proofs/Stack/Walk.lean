import Mathlib.Data.List.Nodup
import StackAudit.Proofs.FileTree.Basic
import StackAudit.Stack.Discovery

/-!
# What the walks through a tree find

Two walks go through a tree of files. One looks for stacks and leaves a stack as soon as it has
found it, by the files directly in it; the other looks for document files and goes everywhere. What
they find is described here without them, and each of them finds all of it, once.
-/
namespace StackAudit

/-- The extensions of a format, in any case. -/
def Format.IsExtension (f : Format) (ext : String) : Prop :=
  match f with
  | .json => Text.asciiLower ext = "json"
  | .yaml => Text.asciiLower ext = "yaml" ∨ Text.asciiLower ext = "yml"

/-- The name ends in an extension of the format, behind a point that is not its first character. -/
def IsDocumentName (name : String) (f : Format) : Prop :=
  ∃ stem ext, name = stem ++ "." ++ ext ∧ stem ≠ "" ∧ f.IsExtension ext

theorem ofExtension?_eq_some_iff {ext : String} {f : Format} :
    Format.ofExtension? ext = some f ↔ f.IsExtension ext := by
  simp only [Format.ofExtension?, Format.IsExtension.eq_def]
  cases f <;> split_ifs <;> simp_all

theorem Format.IsExtension.point_notMem {f : Format} {ext : String} (h : f.IsExtension ext) :
    '.' ∉ ext.toList := by
  intro hmem
  have hlower : '.' ∈ (Text.asciiLower ext).toList := by
    rw [Text.asciiLower, String.toList_ofList]
    exact List.mem_map.2 ⟨'.', hmem, rfl⟩
  cases f with
  | json =>
    rw [show Text.asciiLower ext = "json" from h] at hlower
    exact absurd hlower (by decide)
  | yaml =>
    rcases h with h | h <;> rw [h] at hlower <;> exact absurd hlower (by decide)

theorem splitLast_eq_some_iff {c : Char} {s stem ext : String} :
    Text.splitLast c s = some (stem, ext) ↔
      s.toList = stem.toList ++ c :: ext.toList ∧ c ∉ ext.toList := by
  rw [Text.splitLast, Option.map_eq_some_iff]
  constructor
  · rintro ⟨⟨l, r⟩, hcut, hparts⟩
    obtain ⟨rfl, rfl⟩ := Prod.mk.inj hparts
    obtain ⟨happend, hnot⟩ := Text.eq_append_of_cutFirst hcut
    refine ⟨?_, by simpa using hnot⟩
    simpa using congrArg List.reverse happend
  · rintro ⟨happend, hnot⟩
    refine ⟨(ext.toList.reverse, stem.toList.reverse), ?_, by simp⟩
    rw [happend, List.reverse_append, List.reverse_cons, List.append_assoc]
    exact Text.cutFirst_append_cons (by simpa using hnot) _

theorem format?_eq_some_iff {name : String} {f : Format} :
    (FileName.text name).format? = some f ↔ IsDocumentName name f := by
  have hextension (ext : String) : FileName.extensionOf? name = some ext ↔
      ∃ stem, stem ≠ "" ∧ Text.splitLast '.' name = some (stem, ext) := by
    rw [FileName.extensionOf?, Option.bind_eq_some_iff]
    constructor
    · rintro ⟨⟨stem, ext'⟩, hsplit, h⟩
      by_cases hstem : stem = ""
      · simp [hstem] at h
      · obtain rfl : ext' = ext := by simpa [hstem] using h
        exact ⟨stem, hstem, hsplit⟩
    · rintro ⟨stem, hstem, hsplit⟩
      exact ⟨_, hsplit, by simp [hstem]⟩
  rw [FileName.format?, FileName.extension?, Option.bind_eq_some_iff]
  simp only [hextension, ofExtension?_eq_some_iff, splitLast_eq_some_iff]
  constructor
  · rintro ⟨ext, ⟨stem, hstem, happend, -⟩, hext⟩
    exact ⟨stem, ext, String.toList_inj.1 (by simp [happend]), hstem, hext⟩
  · rintro ⟨stem, ext, rfl, hstem, hext⟩
    exact ⟨ext, ⟨stem, hstem, by simp, hext.point_notMem⟩, hext⟩

namespace FileTree

/-- A document file stands at the end of the names. -/
def HasDocument (t : FileTree) (names : List String) (f : Format) : Prop :=
  ∃ above name content, names = above ++ [name] ∧ IsDocumentName name f ∧
    t.get? (names.map .text) = some (.file content)

/-- At the end of the names stands a directory with a document file directly in it. -/
def IsStackAt (t : FileTree) (names : List String) : Prop :=
  ∃ name f, t.HasDocument (names ++ [name]) f

/-- At the end of the names stands a stack, and there is none above it. -/
def IsTopmostStack (t : FileTree) (names : List String) : Prop :=
  t.IsStackAt names ∧ ∀ above, above <+: names → t.IsStackAt above → above = names

@[simp] theorem not_hasDocument_nil (t : FileTree) (f : Format) : ¬t.HasDocument [] f := by
  rintro ⟨above, name, content, h, -⟩
  simp at h

@[simp] theorem not_hasDocument_file (content : ByteArray) (names : List String) (f : Format) :
    ¬(file content).HasDocument names f := by
  rintro ⟨above, name, content', rfl, -, h⟩
  cases above <;> simp at h

section

variable {t : FileTree} {names : List String} {f f' : Format}

theorem HasDocument.ne_nil (h : t.HasDocument names f) : names ≠ [] := by
  rintro rfl
  exact not_hasDocument_nil t f h

theorem HasDocument.exists_file (h : t.HasDocument names f) :
    ∃ content, t.get? (names.map .text) = some (.file content) := by
  obtain ⟨-, -, content, -, -, hget⟩ := h
  exact ⟨content, hget⟩

theorem HasDocument.isEntryName (h : t.HasDocument names f)
    (hnames : t.WellNamed FileName.IsText) : ∀ s ∈ names, IsEntryName s := by
  obtain ⟨content, hget⟩ := h.exists_file
  exact (hnames.mono fun _ => FileName.IsText.isValid).isEntryName hget

/-- The last name tells the format. -/
theorem HasDocument.format_unique (h : t.HasDocument names f) (h' : t.HasDocument names f') :
    f = f' := by
  obtain ⟨above, name, -, rfl, hname, -⟩ := h
  obtain ⟨above', name', -, hsplit, hname', -⟩ := h'
  obtain ⟨-, hlast⟩ := List.append_inj' hsplit rfl
  obtain rfl : name = name' := by simpa using hlast
  rw [← format?_eq_some_iff] at hname hname'
  exact Option.some.inj (hname.symm.trans hname')

end

variable {entries : List (FileName × FileTree)} {s : String} {names : List String} {f : Format}

theorem hasDocument_singleton :
    (dir entries).HasDocument [s] f ↔
      IsDocumentName s f ∧ ∃ content, entries.lookup (.text s) = some (.file content) := by
  simp [HasDocument, List.singleton_eq_append_iff]

theorem hasDocument_cons (hnames : names ≠ []) :
    (dir entries).HasDocument (s :: names) f ↔
      ∃ t, entries.lookup (.text s) = some t ∧ t.HasDocument names f := by
  simp only [HasDocument, List.map_cons, get?_dir_cons, Option.bind_eq_some_iff]
  constructor
  · rintro ⟨above, name, content, hsplit, hname, t, hentry, hget⟩
    obtain ⟨above, rfl⟩ : ∃ above', above = s :: above' := by
      cases above <;> simp_all
    exact ⟨t, hentry, above, name, content, (List.cons.inj hsplit).2, hname, hget⟩
  · rintro ⟨t, hentry, above, name, content, hsplit, hname, hget⟩
    exact ⟨s :: above, name, content, by rw [hsplit]; rfl, hname, t, hentry, hget⟩

@[simp] theorem not_isStackAt_file (content : ByteArray) (names : List String) :
    ¬(file content).IsStackAt names := by
  rintro ⟨name, f, h⟩
  exact not_hasDocument_file _ _ _ h

theorem isStackAt_cons :
    (dir entries).IsStackAt (s :: names) ↔
      ∃ t, entries.lookup (.text s) = some t ∧ t.IsStackAt names := by
  have hne (name : String) : names ++ [name] ≠ [] := by simp
  simp only [IsStackAt, List.cons_append, hasDocument_cons (hne _)]
  constructor
  · rintro ⟨name, f, t, hentry, h⟩
    exact ⟨t, hentry, name, f, h⟩
  · rintro ⟨t, hentry, name, f, h⟩
    exact ⟨name, f, t, hentry, h⟩

theorem isStackAt_nil (h : (dir entries).WellNamed FileName.IsText) :
    (dir entries).IsStackAt [] ↔ (dir entries).isStack = true := by
  obtain _ | ⟨distinct, hnames, -⟩ := h
  simp only [IsStackAt, List.nil_append, hasDocument_singleton, lookup_eq_some_iff_mem distinct,
    ← format?_eq_some_iff, isStack, entries?, Option.getD_some, List.any_eq_true]
  constructor
  · rintro ⟨name, f, hformat, content, hmem⟩
    exact ⟨_, hmem, by simp [isDocument, isFile, hformat]⟩
  · rintro ⟨⟨n, t⟩, hmem, hdoc⟩
    obtain ⟨hfile, hformat⟩ := Bool.and_eq_true_iff.1 hdoc
    obtain ⟨f, hf⟩ := Option.isSome_iff_exists.1 hformat
    cases n with
    | octets bs => exact (hnames _ hmem).elim
    | text name =>
      cases t with
      | dir entries => cases hfile
      | file content => exact ⟨name, f, hf, content, hmem⟩

theorem isTopmostStack_nil {t : FileTree} : t.IsTopmostStack [] ↔ t.IsStackAt [] := by
  simp [IsTopmostStack]

theorem isTopmostStack_cons :
    (dir entries).IsTopmostStack (s :: names) ↔
      ¬(dir entries).IsStackAt [] ∧
        ∃ t, entries.lookup (.text s) = some t ∧ t.IsTopmostStack names := by
  simp only [IsTopmostStack, isStackAt_cons]
  constructor
  · rintro ⟨⟨t, hentry, hstack⟩, htop⟩
    refine ⟨fun h => absurd (htop [] List.nil_prefix h) (by simp), t, hentry, hstack, ?_⟩
    intro above hle habove
    have hcons := htop (s :: above) (List.cons_prefix_cons.2 ⟨rfl, hle⟩)
      (isStackAt_cons.2 ⟨t, hentry, habove⟩)
    exact (List.cons.inj hcons).2
  · rintro ⟨hroot, t, hentry, hstack, htop⟩
    refine ⟨⟨t, hentry, hstack⟩, fun above hle habove => ?_⟩
    cases above with
    | nil => exact absurd habove hroot
    | cons s' above =>
      obtain ⟨rfl, hbelow⟩ := List.cons_prefix_cons.1 hle
      obtain ⟨t', hentry', habove⟩ := isStackAt_cons.1 habove
      obtain rfl : t = t' := Option.some.inj (hentry.symm.trans hentry')
      rw [htop above hbelow habove]

/-! ### The walks -/

/-- The stacks found behind an entry. -/
def entryStacks (names : List String) (e : FileName × FileTree) : List (List String) :=
  match e.1 with
  | .text s => e.2.stackPaths (names ++ [s])
  | .octets _ => []

/-- The document files found behind an entry. -/
def entryDocuments (names : List String) (e : FileName × FileTree) : List (List String × Format) :=
  match e with
  | (.text s, .file _) => ((FileName.text s).format?.map (names ++ [s], ·)).toList
  | (.text s, t) => t.documents (names ++ [s])
  | (.octets _, _) => []

theorem mem_entryDocuments_file {content : ByteArray} {path : List String} :
    (path, f) ∈ entryDocuments names (.text s, .file content) ↔
      path = names ++ [s] ∧ IsDocumentName s f := by
  rw [entryDocuments, Option.mem_toList, Option.map_eq_some_iff]
  simp only [format?_eq_some_iff, Prod.mk.injEq]
  constructor
  · rintro ⟨f, hname, rfl, rfl⟩
    exact ⟨rfl, hname⟩
  · rintro ⟨rfl, hname⟩
    exact ⟨f, hname, rfl, rfl⟩

theorem stackPathsIn_eq (names : List String) (entries : List (FileName × FileTree)) :
    stackPathsIn names entries = entries.flatMap (entryStacks names) := by
  induction entries with
  | nil => rfl
  | cons e entries ih =>
    obtain ⟨n, t⟩ := e
    cases n <;> simp [stackPathsIn, entryStacks, ih]

theorem documents_dir (names : List String) (entries : List (FileName × FileTree)) :
    (dir entries).documents names = entries.flatMap (entryDocuments names) := by
  rw [documents]
  induction entries with
  | nil => simp [documentsIn]
  | cons e entries ih =>
    obtain ⟨n, t⟩ := e
    cases n <;> cases t <;> simp [documentsIn, documents, entryDocuments, ih]

theorem stackPaths_dir (names : List String) (entries : List (FileName × FileTree)) :
    (dir entries).stackPaths names =
      if (dir entries).isStack then [names] else entries.flatMap (entryStacks names) := by
  rw [stackPaths, stackPathsIn_eq]

/-- The walk finds the topmost stacks and nothing else. -/
theorem mem_stackPaths_iff {t : FileTree} (h : t.WellNamed FileName.IsText)
    {names path : List String} :
    path ∈ t.stackPaths names ↔ ∃ below, path = names ++ below ∧ t.IsTopmostStack below := by
  induction h generalizing names with
  | file content => simp [stackPaths, IsTopmostStack]
  | @dir entries distinct hnames below ih =>
    have hroot := isStackAt_nil (.dir distinct hnames below)
    have hlookup := @lookup_eq_some_iff_mem entries distinct
    rw [stackPaths_dir]
    split_ifs with hstack
    · rw [List.mem_singleton]
      constructor
      · rintro rfl
        exact ⟨[], by simp, isTopmostStack_nil.2 (hroot.2 hstack)⟩
      · rintro ⟨below, rfl, htop⟩
        cases below with
        | nil => simp
        | cons s below => exact absurd (hroot.2 hstack) (isTopmostStack_cons.1 htop).1
    · have hnot := fun h => hstack (hroot.1 h)
      rw [List.mem_flatMap]
      constructor
      · rintro ⟨⟨n, t⟩, hmem, hpath⟩
        cases n with
        | octets bs => simp [entryStacks] at hpath
        | text s =>
          obtain ⟨below, rfl, htop⟩ := (ih _ hmem).1 hpath
          exact ⟨s :: below, by simp, isTopmostStack_cons.2 ⟨hnot, t, hlookup.2 hmem, htop⟩⟩
      · rintro ⟨below, rfl, htop⟩
        cases below with
        | nil => exact absurd (isTopmostStack_nil.1 htop) hnot
        | cons s below =>
          obtain ⟨-, t, hentry, htop⟩ := isTopmostStack_cons.1 htop
          have hmem := hlookup.1 hentry
          exact ⟨_, hmem, (ih _ hmem).2 ⟨below, by simp, htop⟩⟩

/-- What the walk finds are stacks, also where not all names are texts. -/
theorem exists_of_mem_stackPaths {ok : FileName → Prop} {t : FileTree} (h : t.WellNamed ok)
    {names path : List String} (hpath : path ∈ t.stackPaths names) :
    ∃ below sub, path = names ++ below ∧ t.get? (below.map .text) = some sub ∧
      sub.isStack = true := by
  induction h generalizing names with
  | file content => simp [stackPaths] at hpath
  | @dir entries distinct hnames below ih =>
    rw [stackPaths_dir] at hpath
    split_ifs at hpath with hstack
    · exact ⟨[], _, by simpa using hpath, rfl, hstack⟩
    · obtain ⟨⟨n, t⟩, hmem, hpath⟩ := List.mem_flatMap.1 hpath
      cases n with
      | octets bs => simp [entryStacks] at hpath
      | text s =>
        obtain ⟨below, sub, rfl, hget, hstack⟩ := ih _ hmem hpath
        have hentry := (lookup_eq_some_iff_mem distinct).2 hmem
        exact ⟨s :: below, sub, by simp, by simp [hentry, hget], hstack⟩

/-- The walk finds the document files and nothing else. -/
theorem mem_documents_iff {t : FileTree} (h : t.WellNamed FileName.IsText)
    {names path : List String} {f : Format} :
    (path, f) ∈ t.documents names ↔ ∃ below, path = names ++ below ∧ t.HasDocument below f := by
  induction h generalizing names with
  | file content => simp [documents]
  | @dir entries distinct hnames below ih =>
    have hlookup := @lookup_eq_some_iff_mem entries distinct
    rw [documents_dir, List.mem_flatMap]
    constructor
    · rintro ⟨⟨n, t⟩, hmem, hpath⟩
      cases n with
      | octets bs => simp [entryDocuments] at hpath
      | text s =>
        cases t with
        | file content =>
          obtain ⟨rfl, hname⟩ := mem_entryDocuments_file.1 hpath
          exact ⟨[s], rfl, hasDocument_singleton.2 ⟨hname, content, hlookup.2 hmem⟩⟩
        | dir entries' =>
          obtain ⟨below, rfl, hdoc⟩ := (ih _ hmem).1 hpath
          have hne : below ≠ [] := by
            rintro rfl
            simp at hdoc
          exact ⟨s :: below, by simp, (hasDocument_cons hne).2 ⟨_, hlookup.2 hmem, hdoc⟩⟩
    · rintro ⟨below, rfl, hdoc⟩
      match below with
      | [] => simp at hdoc
      | [s] =>
        obtain ⟨hname, content, hentry⟩ := hasDocument_singleton.1 hdoc
        exact ⟨_, hlookup.1 hentry, mem_entryDocuments_file.2 ⟨rfl, hname⟩⟩
      | s :: s' :: below =>
        obtain ⟨t, hentry, hdoc⟩ := (hasDocument_cons (by simp)).1 hdoc
        have hmem := hlookup.1 hentry
        cases t with
        | file content => simp at hdoc
        | dir entries' => exact ⟨_, hmem, (ih _ hmem).2 ⟨_, by simp, hdoc⟩⟩

theorem mem_documents_nil {t : FileTree} (hnames : t.WellNamed FileName.IsText) :
    (names, f) ∈ t.documents [] ↔ t.HasDocument names f := by
  rw [mem_documents_iff hnames]
  simp

/-- What is found behind different entries differs, where it tells the entry. -/
theorem nodup_flatMap_entries {α : Type} {entries : List (FileName × FileTree)}
    (distinct : (entries.map Prod.fst).Nodup) {found : FileName × FileTree → List α}
    (name : α → Option FileName) (hfound : ∀ e ∈ entries, (found e).Nodup)
    (hname : ∀ e ∈ entries, ∀ a ∈ found e, name a = some e.1) :
    (entries.flatMap found).Nodup := by
  refine List.nodup_flatMap.2 ⟨hfound, ?_⟩
  refine (List.pairwise_map.1 distinct).imp_of_mem ?_
  intro e e' he he' hne a ha ha'
  exact hne (Option.some.inj ((hname e he a ha).symm.trans (hname e' he' a ha')))

/-- No stack is found twice. -/
theorem nodup_stackPaths {t : FileTree} (h : t.WellNamed FileName.IsText) (names : List String) :
    (t.stackPaths names).Nodup := by
  induction h generalizing names with
  | file content => simp [stackPaths]
  | @dir entries distinct hnames below ih =>
    rw [stackPaths_dir]
    split_ifs with hstack
    · simp
    · refine nodup_flatMap_entries distinct (fun path => path[names.length]?.map .text) ?_ ?_
      · rintro ⟨n, t⟩ hmem
        cases n with
        | octets bs => exact .nil
        | text s => exact ih _ hmem _
      · rintro ⟨n, t⟩ hmem path hpath
        cases n with
        | octets bs => simp [entryStacks] at hpath
        | text s =>
          obtain ⟨rest, rfl, -⟩ := (mem_stackPaths_iff (below _ hmem)).1 hpath
          simp

/-- No document file is found twice. -/
theorem nodup_documents {t : FileTree} (h : t.WellNamed FileName.IsText) (names : List String) :
    (t.documents names).Nodup := by
  induction h generalizing names with
  | file content => simp [documents]
  | @dir entries distinct hnames below ih =>
    rw [documents_dir]
    refine nodup_flatMap_entries distinct (fun doc => doc.1[names.length]?.map .text) ?_ ?_
    · rintro ⟨n, t⟩ hmem
      cases n with
      | octets bs => simp [entryDocuments]
      | text s =>
        cases t with
        | file content =>
          exact Option.toList_nodup _
        | dir entries' => exact ih _ hmem _
    · rintro ⟨n, t⟩ hmem ⟨path, f⟩ hpath
      cases n with
      | octets bs => simp [entryDocuments] at hpath
      | text s =>
        cases t with
        | file content =>
          obtain ⟨rfl, -⟩ := mem_entryDocuments_file.1 hpath
          simp
        | dir entries' =>
          obtain ⟨rest, rfl, -⟩ := (mem_documents_iff (below _ hmem)).1 hpath
          simp

end FileTree

end StackAudit
