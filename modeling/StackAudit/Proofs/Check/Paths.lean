import StackAudit.Proofs.Check.Run
import StackAudit.Proofs.CheckReport.Paths
import StackAudit.Proofs.Declaration
import StackAudit.Proofs.Resolution
import StackAudit.Proofs.Stack.Discovery

/-!
# Where paths come from

A check makes every path of its report relative to some directory, so all of them are canonical, and
they still are when the report is read again. A report from elsewhere may hold any text for a path,
and a path that is read from it need not be canonical.
-/
namespace StackAudit

open StackPath (ofText relativeTo)

variable {d : Disk} {request : CheckRequest} {p : Policy} {c : Catalog} {dir : String}

/-- A document comes from the file that it was read from. -/
theorem Document.source_of_mem_decode {source : StackPath} {text : String} {format : Format}
    {docs : List RawDocument} (h : decode source text format = .ok docs) {raw : RawDocument}
    (hraw : raw ∈ docs) : raw.doc.source = source := by
  unfold decode at h
  split at h
  · cases h
    obtain ⟨body, -, rfl⟩ := List.mem_map.1 hraw
    rfl
  · cases h

namespace Stack

theorem isCanonical_of_mem_readDocuments {docs : List RawDocument}
    (h : readDocuments d dir = .ok docs) {raw : RawDocument} (hraw : raw ∈ docs) :
    raw.doc.source.IsCanonical := by
  obtain ⟨files, hfiles, h⟩ := bind_eq_ok_iff.1 h
  obtain ⟨lists, hlists, h⟩ := bind_eq_ok_iff.1 h
  obtain rfl := Except.ok.inj h
  obtain ⟨list, hlist, hraw⟩ := List.mem_flatten.1 hraw
  obtain ⟨file, hfile, hread⟩ := (mem_iff_of_mapM_eq_ok hlists).1 hlist
  obtain ⟨text, -, hdecode⟩ := bind_eq_ok_iff.1 hread
  rw [Document.source_of_mem_decode (mapError_eq_ok_iff.1 hdecode) hraw]
  exact Disk.isCanonical_of_mem_stackFiles (mapError_eq_ok_iff.1 hfiles) hfile

/-- Every resource of a stack knows the file of its document. -/
theorem isCanonical_of_load {unknown : UnknownKinds} {stack : Stack}
    (h : load d dir .builtin unknown = .ok stack) {r : Resource} (hr : r ∈ stack.graph.resources)
    {l : Location} (hl : r.location = some l) : l.path.IsCanonical := by
  obtain ⟨docs, hdocs, h⟩ := bind_eq_ok_iff.1 h
  obtain ⟨g, hg, h⟩ := bind_eq_ok_iff.1 h
  obtain rfl := Except.ok.inj h
  obtain ⟨f, hf, -, hresources⟩ := Graph.exists_found_of_ofDocuments (mapError_eq_ok_iff.1 hg)
  rw [hresources] at hr
  obtain ⟨e, he, rfl⟩ := List.mem_map.1 hr
  obtain ⟨raw, hraw, declaration, hdeclaration, -, hdoc⟩ := (Assembly.Found.mem_adapted_iff hf).1 he
  obtain rfl := Option.some.inj hl
  dsimp only
  rw [hdoc, (Declaration.samePlace_of_ofDocument hdeclaration).1]
  exact isCanonical_of_mem_readDocuments hdocs hraw

end Stack

/-- Every verdict is found where some resource was declared. -/
def PlacedIn (g : Graph) (vs : List Verdict) : Prop :=
  ∀ v ∈ vs, ∃ s ∈ g.resources, v.location = s.location

theorem placedIn_verdictsOn {g : Graph} {s : Resource} (hs : s ∈ g.resources) (c : Catalog) :
    PlacedIn g (verdictsOn g c s) := by
  intro v hv
  obtain ⟨r, -, rfl⟩ := List.mem_map.1 hv
  exact ⟨s, hs, rfl⟩

theorem Progress.placedIn_foldl_visit {g : Graph} {l : List Resource} (hl : ∀ s ∈ l, s ∈ g.resources)
    {progress : Progress} (h : PlacedIn g (progress.slots.flatMap (·.getD []))) :
    PlacedIn g ((l.foldl (visit g c) progress).slots.flatMap (·.getD [])) := by
  induction l generalizing progress with
  | nil => exact h
  | cons s l ih =>
    obtain ⟨hs, hl⟩ := List.forall_mem_cons.1 hl
    refine ih hl ?_
    unfold visit
    split
    · simpa using h
    · intro v hv
      rw [List.flatMap_append, List.mem_append] at hv
      rcases hv with hv | hv
      · exact h v hv
      · exact placedIn_verdictsOn hs c v (by simpa using hv)

theorem placedIn_of_evaluateUnder {g : Graph} {flag : Option Bool} {r : Report}
    (h : evaluateUnder g c flag = .ok r) : PlacedIn g r.verdicts := by
  unfold evaluateUnder at h
  split at h
  · cases h
    intro v hv
    obtain ⟨s, hs, r, -, rfl⟩ := mem_verdicts_evaluate_iff.1 hv
    exact ⟨s, hs, rfl⟩
  · unfold Progress.result at h
    split at h
    · cases h
    · cases h
      exact Progress.placedIn_foldl_visit (fun _ hs => hs) (by simp [PlacedIn])

theorem isCanonical_of_checkStack {s : StackResult} (h : checkStack d request p c dir = .ok s) :
    ∀ path ∈ s.paths, path.IsCanonical := by
  rcases checkStack_eq_ok_iff.1 h with ⟨e, -, rfl⟩ | ⟨stack, r, hload, hr, rfl⟩
  · simp [StackResult.paths, StackResult.ofMalformed, StackPath.isCanonical_relativeTo]
  · refine List.forall_mem_cons.2 ⟨StackPath.isCanonical_relativeTo _ _, fun path hpath => ?_⟩
    obtain ⟨v, hv, hpath⟩ := List.mem_flatMap.1 hpath
    obtain ⟨l, hl, rfl⟩ := Option.map_eq_some_iff.1 (Option.mem_toList.1 hpath)
    obtain ⟨-, hunder⟩ := evaluateWith_eq_ok_iff.1 hr
    obtain ⟨resource, hresource, hlocation⟩ := placedIn_of_evaluateUnder hunder v hv
    exact Stack.isCanonical_of_load hload hresource (hlocation ▸ hl)

theorem isCanonical_of_check {startedAt finishedAt : Timestamp} {k : Checked}
    (h : check d request startedAt finishedAt = .ok k) :
    ∀ path ∈ k.report.paths, path.IsCanonical := by
  obtain ⟨p, c, dirs, results, -, -, -, -, hresults, rfl⟩ := check_eq_ok_iff.1 h
  intro path hpath
  obtain ⟨s, hs, hpath⟩ := List.mem_flatMap.1 hpath
  obtain ⟨dir, -, hdir⟩ := (mem_iff_of_mapM_eq_ok hresults).1 hs
  exact isCanonical_of_checkStack hdir path hpath

/-- What the program writes as a report, of a check or of a run that broke off. -/
def CheckReport.IsOutput (text : String) : Prop :=
  (∃ d request startedAt finishedAt k, check d request startedAt finishedAt = .ok k ∧
    text = k.report.text) ∨ ∃ message now, text = (ofFailure message now).text

/-- In what the program wrote it reads canonical paths. -/
theorem CheckReport.IsOutput.isCanonical {text : String} (h : IsOutput text) {r : CheckReport}
    (hr : read text = .ok r) : ∀ path ∈ r.paths, path.IsCanonical := by
  rcases h with ⟨d, request, startedAt, finishedAt, k, hk, rfl⟩ | ⟨message, now, rfl⟩
  · obtain rfl := eq_of_read_text hr
    exact isCanonical_of_check hk
  · obtain rfl := eq_of_read_text hr
    intro path hpath
    cases hpath

namespace StackPath

/-- The paths that can arise when these texts are read as reports: those made from texts and
relative to directories, those in the reports, and all that are joined from them. -/
inductive Arises (input : String → Prop) : StackPath → Prop where
  | ofText (s : String) : Arises input (ofText s)
  | relativeTo (dir path : String) : Arises input (relativeTo dir path)
  | read {text : String} {r : CheckReport} {p : StackPath} (htext : input text)
    (hr : CheckReport.read text = .ok r) (hp : p ∈ r.paths) : Arises input p
  | join {p q : StackPath} (hp : Arises input p) (hq : Arises input q) : Arises input (p.join q)

variable {input : String → Prop}

/-- Only reading can give a path that is not canonical. -/
theorem Arises.isCanonical {p : StackPath} (hinput : ∀ text r, input text →
      CheckReport.read text = .ok r → ∀ q ∈ r.paths, q.IsCanonical)
    (h : Arises input p) : p.IsCanonical := by
  induction h with
  | ofText s => exact isCanonical_ofText s
  | relativeTo dir path => exact isCanonical_relativeTo dir path
  | read htext hr hp => exact hinput _ _ htext hr _ hp
  | join _ _ ihp ihq => exact ihp.join ihq

/-- All paths that arise are canonical, and made again from their own texts, exactly when every text
that stands for a path in a report that is read is that of a canonical path. So they all are when
only reports of the program itself are read. -/
theorem arises_isCanonical_iff (input : String → Prop) :
    ((∀ p, Arises input p → p.IsCanonical ∧ StackPath.ofText p.text = p) ↔
      ∀ text v r, input text → Json.read? text = some v → CheckReport.read text = .ok r →
        ∀ s ∈ CheckReport.writtenPaths v, IsCanonical ⟨s⟩) ∧
    ((∀ text, input text → CheckReport.IsOutput text) →
      ∀ p, Arises input p → p.IsCanonical ∧ StackPath.ofText p.text = p) := by
  simp only [ofText_text_eq_iff, and_self]
  refine ⟨⟨fun h text v r htext hv hr s hs => ?_, fun h p hp => ?_⟩, fun h p hp => ?_⟩
  · obtain ⟨p, hp, rfl⟩ := List.mem_map.1 ((CheckReport.text_paths_of_read hv hr).symm ▸ hs)
    exact h p (.read htext hr hp)
  · refine hp.isCanonical fun text r htext hr q hq => ?_
    obtain ⟨v, hv, -⟩ := CheckReport.read_eq_ok_iff.1 hr
    refine h text v r htext hv hr q.text ?_
    rw [← CheckReport.text_paths_of_read hv hr]
    exact List.mem_map_of_mem hq
  · exact hp.isCanonical fun text r htext hr => (h text htext).isCanonical hr

/-- A report from elsewhere, with a path that starts with `./`, one with a backslash and an empty
one. -/
def foreignReport : CheckReport where
  schema := CheckReport.schemaName
  tool := ⟨"stackguard", "9.9.9"⟩
  startedAt := .epoch
  finishedAt := .epoch
  gate := ⟨.pass, .low, [], none⟩
  results :=
    [⟨"a", ⟨"./a"⟩, .compliant, {}, none,
      [⟨"logs", "ObjectStorageBucket", "versioning-required", .low, .pass, "",
        some ⟨⟨"k8s\\main.yaml"⟩, none⟩, none, none⟩]⟩,
     ⟨"root", ⟨""⟩, .compliant, {}, none, []⟩]
  data := ⟨"strict", 2, 0, 10, 0, 0⟩

/-- None of its paths is canonical, and all of them arise. -/
theorem not_isCanonical_foreignReport :
    (Arises (· = foreignReport.text) ⟨"./a"⟩ ∧ ¬IsCanonical ⟨"./a"⟩) ∧
    (Arises (· = foreignReport.text) ⟨"k8s\\main.yaml"⟩ ∧ ¬IsCanonical ⟨"k8s\\main.yaml"⟩) ∧
    Arises (· = foreignReport.text) ⟨""⟩ ∧ ¬IsCanonical ⟨""⟩ := by
  have hread : CheckReport.read foreignReport.text = .ok foreignReport :=
    CheckReport.read_eq_ok_iff.2
      ⟨_, foreignReport.read?_text, rfl, foreignReport.ofJson?_toJson⟩
  have harises : ∀ p ∈ foreignReport.paths, Arises (· = foreignReport.text) p :=
    fun p hp => .read rfl hread hp
  refine ⟨⟨harises _ ?_, ?_⟩, ⟨harises _ ?_, ?_⟩, harises _ ?_, ?_⟩ <;> decide

end StackPath

end StackAudit
