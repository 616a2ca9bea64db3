import StackAudit.Proofs.Stack.Reading

/-!
# Why names must be plain

A canonical path has no backslash. Followed from a directory it may lead up or start at the top, but
where it leads down again it takes no name with a backslash. So a file behind such a name is never
opened, and what it says makes no difference to what is read.
-/
namespace StackAudit

/-- The error is not about what the files of a stack say. -/
def LoadError.IsOutside (e : LoadError) : Prop := ∀ cause, e ≠ .malformed cause

namespace Disk

/-! ### Where canonical paths lead -/

/-- The place is at or above the root, or behind such a place by names without a backslash. -/
def PlainFrom (root place : List FileName) : Prop :=
  ∃ above below, place = above ++ List.map FileName.text below ∧ above <+: root ∧
    ∀ s ∈ below, '\\' ∉ s.toList

namespace PlainFrom

variable {root place place' : List FileName} {top : FileTree}

theorem refl (root : List FileName) : PlainFrom root root :=
  ⟨root, [], by simp, List.prefix_rfl, by simp⟩

theorem nil (root : List FileName) : PlainFrom root [] :=
  ⟨[], [], by simp, List.nil_prefix, by simp⟩

theorem dropLast (h : PlainFrom root place) : PlainFrom root place.dropLast := by
  obtain ⟨above, below, rfl, habove, hbelow⟩ := h
  by_cases hnil : below = []
  · subst hnil
    refine ⟨above.dropLast, [], by simp, ?_, by simp⟩
    exact (List.dropLast_prefix above).trans habove
  · refine ⟨above, below.dropLast, ?_, habove, fun s hs => hbelow s (List.dropLast_subset below hs)⟩
    rw [List.dropLast_append_of_ne_nil (by simpa using hnil), List.map_dropLast]

theorem concat (h : PlainFrom root place) {s : String} (hs : '\\' ∉ s.toList) :
    PlainFrom root (place ++ [.text s]) := by
  obtain ⟨above, below, rfl, habove, hbelow⟩ := h
  refine ⟨above, below ++ [s], by simp, habove, ?_⟩
  intro s' hs'
  rcases List.mem_append.1 hs' with hs' | hs'
  · exact hbelow s' hs'
  · rwa [List.mem_singleton.1 hs']

/-- Steps without a backslash keep to such places. -/
theorem walk (h : PlainFrom root place) {steps : List String}
    (hsteps : ∀ s ∈ steps, '\\' ∉ s.toList) (hwalk : walk top place steps = .ok place') :
    PlainFrom root place' := by
  induction steps generalizing place with
  | nil =>
    obtain rfl := Except.ok.inj hwalk
    exact h
  | cons step steps ih =>
    obtain ⟨hstep, hsteps⟩ := List.forall_mem_cons.1 hsteps
    rw [Disk.walk] at hwalk
    split at hwalk
    · cases hwalk
    · cases hwalk
    · split_ifs at hwalk
      · exact ih h hsteps hwalk
      · exact ih h.dropLast hsteps hwalk
      · exact ih (h.concat hstep) hsteps hwalk

/-- Names that lead from the root to such a place have no backslash. -/
theorem notMem {names : List String} (h : PlainFrom root (root ++ names.map .text)) :
    ∀ s ∈ names, '\\' ∉ s.toList := by
  obtain ⟨above, below, hplace, ⟨rest, rfl⟩, hbelow⟩ := h
  rw [List.append_assoc] at hplace
  have hrest := List.append_cancel_left hplace
  intro s hs
  have hmem : FileName.text s ∈ below.map .text := by
    rw [← hrest]
    exact List.mem_append_right _ (List.mem_map_of_mem hs)
  obtain ⟨s', hs', heq⟩ := List.mem_map.1 hmem
  exact FileName.text.inj heq ▸ hbelow s' hs'

end PlainFrom

variable {d : Disk} {dir q : String} {root place : List FileName}

theorem plainFrom_of_place_joinPath (hroot : d.place dir = .ok root) (hq : '\\' ∉ q.toList)
    (hplace : d.place (joinPath dir q) = .ok place) : PlainFrom root place := by
  have hsteps : ∀ s ∈ Text.pieces '/' q, '\\' ∉ s.toList :=
    Text.notMem_of_mem_pieces (by decide) hq
  cases habsolute : isAbsolute q with
  | false =>
    rw [place_joinPath hroot habsolute] at hplace
    exact (PlainFrom.refl root).walk hsteps hplace
  | true =>
    rw [joinPath, if_pos habsolute, Disk.place, start, if_pos habsolute] at hplace
    split_ifs at hplace
    exact (PlainFrom.nil root).walk hsteps hplace

/-! ### A file that is never opened -/

/-- What files hold if no document is in them, except that the text of one cannot be decoded. -/
def spoilAt (own place : List FileName) : String := if place = own then "\x7b" else "[]"

theorem exists_decode_brackets (source : StackPath) (f : Format) :
    ∃ docs, Document.decode source "[]" f = .ok docs := by
  have hvalues : (Document.values? f "[]").isSome = true := by cases f <;> decide +kernel
  obtain ⟨vs, hvs⟩ := Option.isSome_iff_exists.1 hvalues
  exact ⟨_, by rw [Document.decode, hvs]⟩

theorem exists_decode_brace (source : StackPath) (f : Format) :
    ∃ cause, Document.decode source "\x7b" f = .error cause := by
  have hvalues : Document.values? f "\x7b" = none := by
    rw [← Option.not_isSome_iff_eq_none]
    cases f <;> decide +kernel
  exact ⟨_, by rw [Document.decode, hvalues]⟩

section

variable (hroot : d.place dir = .ok root) {names : List String} {s : String} (hs : s ∈ names)
  (hback : '\\' ∈ s.toList)
include hroot hs hback

/-- A canonical path opens some other file than the one behind a backslash. -/
theorem failsOnly_readFile_spoilAt {file : StackPath × Format} (hfile : file.1.IsCanonical) :
    FailsOnly LoadError.IsOutside
      (Stack.readFile (d.refill (spoilAt (root ++ names.map .text))) dir file) := by
  intro e he
  rcases bind_eq_error_iff.1 he with hread | ⟨text, htext, hdecode⟩
  · obtain ⟨cause, -, rfl⟩ := mapError_eq_error_iff.1 hread
    intro _ h
    cases h
  · obtain ⟨place, hplace, rfl⟩ := readText_refill (mapError_eq_ok_iff.1 htext)
    have hother : place ≠ root ++ names.map .text := by
      rintro rfl
      have hplain := plainFrom_of_place_joinPath hroot hfile.2.1 hplace
      exact hplain.notMem s hs hback
    obtain ⟨docs, hdocs⟩ := exists_decode_brackets file.1 file.2
    rw [spoilAt, if_neg hother, hdocs] at hdecode
    cases hdecode

/-- So the text behind a backslash is never decoded. -/
theorem failsOnly_readDocuments_spoilAt :
    FailsOnly LoadError.IsOutside
      (Stack.readDocuments (d.refill (spoilAt (root ++ names.map .text))) dir) := by
  intro e he
  rcases bind_eq_error_iff.1 he with hsearch | ⟨files, hfiles, hrest⟩
  · obtain ⟨cause, -, rfl⟩ := mapError_eq_error_iff.1 hsearch
    intro _ h
    cases h
  · have hcanonical : ∀ file ∈ files, file.1.IsCanonical := fun _ hfile =>
      isCanonical_of_mem_stackFiles (mapError_eq_ok_iff.1 hfiles) hfile
    have hread := FailsOnly.mapM fun file hfile =>
      failsOnly_readFile_spoilAt hroot hs hback (hcanonical file hfile)
    exact hread.bind (fun _ => .ok _) e hrest

end

/-- A tree whose files hold given texts has them in its listing. -/
theorem mem_of_isListing_refill {t : FileTree} {text : List FileName → String}
    {files : List TextFile} (hlisting : (t.refill text root).IsListing files)
    {names : List String} {f : Format} (h : t.HasDocument names f) :
    ⟨names, f, text (root ++ names.map .text)⟩ ∈ files := by
  obtain ⟨content, hget⟩ := h.exists_file
  exact (hlisting.mem_iff _).2 ⟨h.of_sameShape t.sameShape_refill, FileTree.textAt?_refill hget⟩

variable {entries : List (FileName × FileTree)}

/-- What is read is faithful for all contents of the files exactly when no document file is behind a
name with a backslash. -/
theorem readsFaithfully_iff_plainlyNamed (hdir : d.get dir = .ok (.dir entries))
    (hnames : (FileTree.dir entries).WellNamed FileName.IsText) :
    (∀ (d' : Disk) (t' : FileTree), d.SameShape d' → d'.get dir = .ok t' →
        t'.WellNamed FileName.IsText → t'.HoldsTexts → d'.ReadsFaithfully dir t') ↔
      (FileTree.dir entries).PlainlyNamed := by
  constructor
  · intro hreads names f hdoc s hs hback
    obtain ⟨root, hroot, hget⟩ := get_eq_ok_iff.1 hdir
    -- the file behind the backslash cannot be decoded, and all others can
    obtain ⟨files, hlisting, hdocs⟩ := hreads (d.refill (spoilAt (root ++ names.map .text))) _
      (d.sameShape_refill _) (get_refill hroot hget) hnames.refill (FileTree.holdsTexts_refill _)
    have hown := mem_of_isListing_refill hlisting hdoc
    obtain ⟨cause, hcause⟩ : ∃ cause, files.mapM TextFile.decode = .error cause := by
      cases hfiles : files.mapM TextFile.decode with
      | error cause => exact ⟨cause, rfl⟩
      | ok docs =>
        obtain ⟨docs, hok⟩ := exists_of_mem_of_mapM_eq_ok hfiles hown
        obtain ⟨cause, herror⟩ := exists_decode_brace (.ofText ("/".intercalate names)) f
        rw [TextFile.decode, spoilAt, if_pos rfl, TextFile.path, herror] at hok
        cases hok
    rw [hcause] at hdocs
    exact failsOnly_readDocuments_spoilAt hroot hs hback _ hdocs cause rfl
  · intro hplain d' t' hshape hdir' hnames' htexts
    have htrees := hshape.of_get hdir hdir'
    obtain ⟨entries', hentries⟩ := htrees.exists_dir (FileTree.get?_nil _)
    obtain rfl : t' = .dir entries' := Option.some.inj hentries
    refine readsFaithfully_of_plainlyNamed hdir' hnames' (fun names f hdoc => ?_) htexts
    exact hplain names f (hdoc.of_sameShape htrees.symm)

/-- A stack with documents at two depths, the last of which cannot be decoded, and with a backslash
in the name of a note. -/
def noted : List (FileName × FileTree) :=
  [(.text "main.json", .file "[]".toUTF8),
   (.text "k8s", .dir [(.text "web app.yml", .file "\x7b".toUTF8)]),
   (.text "old\\notes.txt", .file "[]".toUTF8)]

def notedDisk : Disk := ⟨.dir [(.text "stacks", .dir noted)], []⟩

theorem wellNamed_noted : (FileTree.dir noted).WellNamed FileName.IsText := by
  have hsub : (FileTree.dir [(.text "web app.yml", .file "\x7b".toUTF8)]).WellNamed
      FileName.IsText :=
    .dir (by decide) (by decide) (by simp [FileTree.WellNamed.file])
  refine .dir (by decide) (by decide) ?_
  simpa [noted, FileTree.WellNamed.file] using hsub

theorem documents_noted : (FileTree.dir noted).documents [] =
    [(["main.json"], .json), (["k8s", "web app.yml"], .yaml)] := by
  have hmain : (FileName.text "main.json").format? = some .json := by decide +kernel
  have hweb : (FileName.text "web app.yml").format? = some .yaml := by decide +kernel
  have hnotes : (FileName.text "old\\notes.txt").format? = none := by decide +kernel
  simp [noted, FileTree.documents, FileTree.documentsIn, hmain, hweb, hnotes]

theorem hasDocument_noted {names : List String} {f : Format}
    (h : (FileTree.dir noted).HasDocument names f) :
    names = ["main.json"] ∨ names = ["k8s", "web app.yml"] := by
  have hmem := (FileTree.mem_documents_nil wellNamed_noted).2 h
  rw [documents_noted, List.mem_pair, Prod.mk.injEq, Prod.mk.injEq] at hmem
  exact hmem.imp And.left And.left

theorem readsFaithfully_iff_plainlyNamed_noted :
    notedDisk.get "stacks/" = .ok (.dir noted) ∧
      (FileTree.dir noted).WellNamed FileName.IsText ∧ (FileTree.dir noted).HoldsTexts ∧
      (FileTree.dir noted).PlainlyNamed ∧ notedDisk.ReadsFaithfully "stacks/" (.dir noted) := by
  have hdir : notedDisk.get "stacks/" = .ok (.dir noted) := rfl
  have htexts : (FileTree.dir noted).HoldsTexts := by
    intro names f h
    rcases hasDocument_noted h with rfl | rfl
    · exact ⟨"[]", fromUTF8?_toUTF8 _⟩
    · exact ⟨"\x7b", fromUTF8?_toUTF8 _⟩
  have hplain : (FileTree.dir noted).PlainlyNamed := by
    intro names f h
    rcases hasDocument_noted h with rfl | rfl <;> decide
  refine ⟨hdir, wellNamed_noted, htexts, hplain, ?_⟩
  exact (readsFaithfully_iff_plainlyNamed hdir wellNamed_noted).2 hplain notedDisk _
    (.refl notedDisk) hdir wellNamed_noted htexts

/-- A stack whose one document has a backslash in its name. -/
def slashed : List (FileName × FileTree) := [(.text "a\\b.json", .file "[]".toUTF8)]

def slashedDisk : Disk := ⟨.dir [(.text "stacks", .dir slashed)], []⟩

theorem wellNamed_slashed : (FileTree.dir slashed).WellNamed FileName.IsText :=
  .dir (by decide) (by decide) (by simp [slashed, FileTree.WellNamed.file])

theorem documents_slashed :
    (FileTree.dir slashed).documents [] = [(["a\\b.json"], .json)] := by
  have hformat : (FileName.text "a\\b.json").format? = some .json := by decide +kernel
  simp [slashed, FileTree.documents, FileTree.documentsIn, hformat]

/-- The file is there and holds a text, but it is looked for below another directory. -/
theorem not_readsFaithfully_slashed :
    slashedDisk.get "stacks" = .ok (.dir slashed) ∧
      (FileTree.dir slashed).WellNamed FileName.IsText ∧ (FileTree.dir slashed).HoldsTexts ∧
      Stack.readDocuments slashedDisk "stacks" =
        .error (.read "stacks" "stacks/a/b.json" .notFound) ∧
      ¬slashedDisk.ReadsFaithfully "stacks" (.dir slashed) := by
  have hdir : slashedDisk.get "stacks" = .ok (.dir slashed) := rfl
  have htexts : (FileTree.dir slashed).HoldsTexts := by
    intro names f h
    have hmem := (FileTree.mem_documents_nil wellNamed_slashed).2 h
    rw [documents_slashed, List.mem_singleton] at hmem
    obtain ⟨rfl, rfl⟩ := Prod.mk.inj hmem
    exact ⟨"[]", fromUTF8?_toUTF8 _⟩
  have hfiles : slashedDisk.stackFiles "stacks" = .ok [(⟨"a/b.json"⟩, .json)] := by
    have hpath : StackPath.relativeTo "stacks" (joinNames "stacks" ["a\\b.json"]) =
        ⟨"a/b.json"⟩ := by decide +kernel
    rw [stackFiles_dir hdir, documents_slashed, List.map_singleton, hpath,
      List.mergeSort_singleton]
  have hread : Stack.readDocuments slashedDisk "stacks" =
      .error (.read "stacks" "stacks/a/b.json" .notFound) := by
    rw [Stack.readDocuments, hfiles]
    rfl
  refine ⟨hdir, wellNamed_slashed, htexts, hread, ?_⟩
  rintro ⟨files, -, hfaithful⟩
  rw [hread] at hfaithful
  obtain ⟨cause, -, hcause⟩ := mapError_eq_error_iff.1 hfaithful.symm
  cases hcause

end Disk

end StackAudit
