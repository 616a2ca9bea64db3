import StackAudit.Proofs.FileTree.Contents
import StackAudit.Proofs.Stack.Discovery
import StackAudit.Proofs.StackPath.Names
import StackAudit.Stack.Load

/-!
# Stacks that are read faithfully

The documents of a stack should be those of its document files, by ascending paths. Each file is
found by the names that lead to it, but opened by its canonical path, which has slashes for
backslashes. So the right files are read, whatever they hold, exactly when no name on the way to one
has a backslash: a canonical path never leads to any other.
-/
namespace StackAudit

/-- A document file with its text. -/
structure TextFile where
  names : List String
  format : Format
  text : String

namespace TextFile

/-- The path of the file, from where its names start. -/
def path (file : TextFile) : String := "/".intercalate file.names

/-- The file as a stack lists it. -/
def listed (file : TextFile) : StackPath × Format := (⟨file.path⟩, file.format)

/-- The documents of the file. -/
def decode (file : TextFile) : Except Malformed (List RawDocument) :=
  Document.decode (.ofText file.path) file.text file.format

end TextFile

namespace FileTree

/-- Every document file holds a text. -/
def HoldsTexts (t : FileTree) : Prop :=
  ∀ names f, t.HasDocument names f → ∃ text, t.textAt? names = some text

/-- No name on the way to a document file has a backslash. -/
def PlainlyNamed (t : FileTree) : Prop :=
  ∀ names f, t.HasDocument names f → ∀ s ∈ names, '\\' ∉ s.toList

/-- The files are the document files of the tree with their texts, each once, by ascending paths. -/
structure IsListing (t : FileTree) (files : List TextFile) : Prop where
  ascending : files.Pairwise fun a b => a.path < b.path
  mem_iff : ∀ file, file ∈ files ↔
    t.HasDocument file.names file.format ∧ t.textAt? file.names = some file.text

end FileTree

/-- The documents of the stack in a directory are those of its document files: all of them in the
order of the files, or else the first fault in decoding one. -/
def Disk.ReadsFaithfully (d : Disk) (dir : String) (t : FileTree) : Prop :=
  ∃ files, t.IsListing files ∧ Stack.readDocuments d dir =
    ((files.mapM TextFile.decode).map List.flatten).mapError .malformed

/-! ### The listing of a tree -/

namespace FileTree

variable {t : FileTree} {names : List String} {f f' : Format}

/-- Whether there is a document file does not depend on what the files hold. -/
theorem HasDocument.of_sameShape {t' : FileTree} (h : t.HasDocument names f)
    (hshape : t.SameShape t') : t'.HasDocument names f := by
  obtain ⟨above, name, content, hsplit, hname, hget⟩ := h
  obtain ⟨content', hget'⟩ := hshape.exists_file hget
  exact ⟨above, name, content', hsplit, hname, hget'⟩

/-- Files that are given texts hold texts. -/
theorem holdsTexts_refill {text : List FileName → String} {place : List FileName} (t : FileTree) :
    (t.refill text place).HoldsTexts := by
  intro names f h
  obtain ⟨content, hget⟩ := (h.of_sameShape t.sameShape_refill.symm).exists_file
  exact ⟨_, textAt?_refill hget⟩

/-- The document file that a walk found, with its text. -/
def toTextFile (t : FileTree) (doc : List String × Format) : TextFile :=
  ⟨doc.1, doc.2, (t.textAt? doc.1).getD ""⟩

/-- The document files that a walk finds, with their texts. -/
def listing (t : FileTree) : List TextFile :=
  ((t.documents []).map t.toTextFile).mergeSort fun a b => a.path ≤ b.path

theorem mem_listing {file : TextFile} :
    file ∈ t.listing ↔ ∃ doc ∈ t.documents [], t.toTextFile doc = file := by
  rw [listing, (List.mergeSort_perm _ _).mem_iff, List.mem_map]

variable (hnames : t.WellNamed FileName.IsText)
include hnames

/-- Different document files have different paths. -/
theorem HasDocument.eq_of_path {names' : List String} (h : t.HasDocument names f)
    (h' : t.HasDocument names' f') (hpath : "/".intercalate names = "/".intercalate names') :
    names = names' := by
  have hpieces := pieces_intercalate_names h.ne_nil (h.isEntryName hnames)
  rw [hpath, pieces_intercalate_names h'.ne_nil (h'.isEntryName hnames)] at hpieces
  exact hpieces.symm

theorem nodup_paths : (t.listing.map TextFile.path).Nodup := by
  have hperm := (List.mergeSort_perm ((t.documents []).map t.toTextFile)
    fun a b => a.path ≤ b.path).map TextFile.path
  refine hperm.nodup_iff.2 ?_
  rw [List.map_map]
  refine List.Nodup.map_on ?_ (nodup_documents hnames [])
  rintro ⟨names, f⟩ hdoc ⟨names', f'⟩ hdoc' hpath
  have h := (mem_documents_nil hnames).1 hdoc
  have h' := (mem_documents_nil hnames).1 hdoc'
  obtain rfl := h.eq_of_path hnames h' hpath
  rw [h.format_unique h']

/-- Where all document files hold texts, a walk lists them. -/
theorem isListing_listing (htexts : t.HoldsTexts) : t.IsListing t.listing where
  ascending := by
    have hsorted : t.listing.Pairwise fun a b => decide (a.path ≤ b.path) = true := by
      refine List.pairwise_mergeSort (fun a b c hab hbc => ?_) (fun a b => ?_) _
      · exact decide_eq_true (String.le_trans (of_decide_eq_true hab) (of_decide_eq_true hbc))
      · simpa using String.le_total a.path b.path
    have hdistinct := List.pairwise_map.1 (nodup_paths hnames)
    refine (hsorted.and hdistinct).imp fun h => ?_
    exact Std.lt_of_le_of_ne (of_decide_eq_true h.1) h.2
  mem_iff file := by
    rw [mem_listing]
    constructor
    · rintro ⟨⟨names, f⟩, hdoc, rfl⟩
      have h := (mem_documents_nil hnames).1 hdoc
      obtain ⟨text, htext⟩ := htexts names f h
      exact ⟨h, by simp [toTextFile, htext]⟩
    · rintro ⟨h, htext⟩
      exact ⟨(file.names, file.format), (mem_documents_nil hnames).2 h, by simp [toTextFile, htext]⟩

end FileTree

/-! ### Where no name has a backslash -/

namespace Disk

variable {d : Disk} {dir : String} {entries : List (FileName × FileTree)}

/-- The path of an entry below a directory leads there. -/
theorem get_joinPath_intercalate {t sub : FileTree} {names : List String} (hdir : d.get dir = .ok t)
    (hne : names ≠ []) (hnames : ∀ s ∈ names, IsEntryName s)
    (hsub : t.get? (names.map .text) = some sub) :
    d.get (joinPath dir ("/".intercalate names)) = .ok sub := by
  obtain ⟨place, hplace, hget⟩ := get_eq_ok_iff.1 hdir
  refine get_eq_ok_iff.2 ⟨place ++ names.map .text, ?_, ?_⟩
  · rw [place_joinPath hplace (isAbsolute_intercalate_names hne hnames),
      pieces_intercalate_names hne hnames]
    exact walk_names hget hnames hsub
  · rw [FileTree.get?_append, hget]
    exact hsub

section

variable (hdir : d.get dir = .ok (.dir entries))
  (hnames : (FileTree.dir entries).WellNamed FileName.IsText)
  (hplain : (FileTree.dir entries).PlainlyNamed)
include hdir hnames hplain

/-- The files of the stack are those of the listing, under their own paths. -/
theorem stackFiles_eq_listing :
    d.stackFiles dir = .ok ((FileTree.dir entries).listing.map TextFile.listed) := by
  have hfound : ((FileTree.dir entries).documents []).map (fun doc =>
      (StackPath.relativeTo dir (joinNames dir doc.1), doc.2)) =
      (((FileTree.dir entries).documents []).map (FileTree.dir entries).toTextFile).map
        TextFile.listed := by
    rw [List.map_map]
    refine List.map_congr_left fun doc hdoc => ?_
    have h := (FileTree.mem_documents_nil hnames).1 hdoc
    have hentry := h.isEntryName hnames
    rw [StackPath.relativeTo_joinNames dir hentry,
      ofText_intercalate_names h.ne_nil hentry (hplain _ _ h)]
    rfl
  rw [stackFiles_dir hdir, hfound, FileTree.listing]
  congr 1
  symm
  apply List.map_mergeSort
  intro a _ b _
  rfl

/-- Each file is opened by a path that leads to it. -/
theorem readFile_eq_decode (htexts : (FileTree.dir entries).HoldsTexts) {file : TextFile}
    (hfile : file ∈ (FileTree.dir entries).listing) :
    Stack.readFile d dir file.listed = file.decode.mapError .malformed := by
  obtain ⟨h, htext⟩ := ((FileTree.isListing_listing hnames htexts).mem_iff file).1 hfile
  have hentry := h.isEntryName hnames
  obtain ⟨content, hget⟩ := h.exists_file
  have hread : d.readText (joinPath dir file.path) = .ok file.text := by
    rw [FileTree.textAt?, hget] at htext
    rw [readText, TextFile.path, get_joinPath_intercalate hdir h.ne_nil hentry hget, ok_bind]
    simp only [htext]
  rw [Stack.readFile, TextFile.listed, hread, TextFile.decode, TextFile.path,
    ofText_intercalate_names h.ne_nil hentry (hplain _ _ h)]
  rfl

theorem readsFaithfully_of_plainlyNamed (htexts : (FileTree.dir entries).HoldsTexts) :
    d.ReadsFaithfully dir (.dir entries) := by
  refine ⟨_, FileTree.isListing_listing hnames htexts, ?_⟩
  have hread : ((FileTree.dir entries).listing.map TextFile.listed).mapM (Stack.readFile d dir) =
      ((FileTree.dir entries).listing.mapM TextFile.decode).mapError .malformed := by
    rw [List.mapM_map]
    exact mapM_eq_mapError fun file => readFile_eq_decode hdir hnames hplain htexts
  rw [Stack.readDocuments, stackFiles_eq_listing hdir hnames hplain]
  change List.mapM (Stack.readFile d dir) _ >>= _ = _
  rw [hread]
  cases (FileTree.dir entries).listing.mapM TextFile.decode <;> rfl

end

end Disk

end StackAudit
