import StackAudit.Proofs.CheckReport.RoundTrip
import StackAudit.Proofs.StackPath.Canonical

/-!
# The paths in a report

A report holds the path of each stack and the paths of the files where its verdicts were found. When
a report is read these paths are taken over as they are written: nothing makes them canonical.
-/
namespace StackAudit

namespace Json

/-- What a record has under a field: by its name in a mapping, and by its place in a sequence. -/
def fieldOf? (names : List String) (name : String) (v : Json) : Option Json :=
  (Record.ofJson? names false v).bind fun r => r.cells.lookup name

/-- What a sequence holds; anything else holds nothing. -/
def items (v : Json) : List Json := v.asArr?.getD []

/-- What is gathered from a sequence that was read can be gathered from what was written. -/
theorem flatMap_of_readItems? {α β : Type} {read : Json → Option α} {f : α → List β}
    {g : Json → List β} (hread : ∀ x a, read x = some a → f a = g x) {v : Json} {l : List α}
    (h : readItems? read v = some l) : l.flatMap f = v.items.flatMap g := by
  obtain ⟨xs, hxs, hl⟩ := Option.bind_eq_some_iff.1 h
  rw [items, hxs, Option.getD_some]
  clear hxs h
  induction xs generalizing l with
  | nil =>
    cases hl
    rfl
  | cons x xs ih =>
    simp only [List.mapM_cons, bind, Option.bind_eq_some_iff] at hl
    obtain ⟨a, ha, l, hl, h⟩ := hl
    cases h
    rw [List.flatMap_cons, List.flatMap_cons, hread x a ha, ih hl]

section

variable {α : Type} {names : List String} {name : String} {v : Json} {r : Record}
  {read : Json → Option α} (hr : Record.ofJson? names false v = some r)
include hr

theorem exists_fieldOf?_of_required {a : α} (h : r.required name read = some a) :
    ∃ x, fieldOf? names name v = some x ∧ read x = some a := by
  obtain ⟨x, hx, ha⟩ := Option.bind_eq_some_iff.1 h
  exact ⟨x, by rw [fieldOf?, hr, Option.bind_some, hx], ha⟩

theorem fieldOf?_of_optional {o : Option α} (h : r.optional name read = some o) :
    o = none ∧ (fieldOf? names name v = none ∨ fieldOf? names name v = some .null) ∨
      ∃ x a, fieldOf? names name v = some x ∧ read x = some a ∧ o = some a := by
  rw [fieldOf?, hr, Option.bind_some]
  unfold Record.optional at h
  split at h
  · rename_i hx
    split at h
    · cases h
    · cases h
      exact .inl ⟨rfl, .inl hx⟩
  · rename_i x hx
    unfold Record.orNull at h
    split at h
    · cases h
      exact .inl ⟨rfl, .inr hx⟩
    · obtain ⟨a, ha, rfl⟩ := Option.map_eq_some_iff.1 h
      exact .inr ⟨x, a, hx, ha, rfl⟩

end

end Json

open Json

/-! ### The paths that a report holds -/

namespace Location

/-- The texts of paths that are written in a location. -/
def writtenPaths (v : Json) : List String :=
  ((fieldOf? ["path", "document"] "path" v).bind asStr?).toList

theorem text_path_of_ofJson? {v : Json} {l : Location} (h : ofJson? v = some l) :
    [l.path.text] = writtenPaths v := by
  simp only [ofJson?, bind, Option.bind_eq_some_iff, pure] at h
  obtain ⟨r, hr, path, hpath, document, -, h⟩ := h
  cases h
  obtain ⟨x, hx, hpath⟩ := exists_fieldOf?_of_required hr hpath
  obtain ⟨s, hs, rfl⟩ := Option.map_eq_some_iff.1 hpath
  rw [writtenPaths, hx, Option.bind_some, hs]
  rfl

end Location

namespace Verdict

/-- Where a verdict was found, if it says so. -/
def paths (v : Verdict) : List StackPath := (v.location.map Location.path).toList

def writtenPaths (v : Json) : List String :=
  (fieldOf? ["resource_id", "resource_kind", "rule_key", "severity", "outcome", "message",
    "location", "help", "fingerprint"] "location" v).toList.flatMap Location.writtenPaths

theorem text_paths_of_ofJson? {v : Json} {r : Verdict} (h : ofJson? v = some r) :
    r.paths.map StackPath.text = writtenPaths v := by
  simp only [ofJson?, bind, Option.bind_eq_some_iff, pure] at h
  obtain ⟨cells, hr, _, -, _, -, _, -, _, -, _, -, _, -, location, hlocation, _, -, _, -, h⟩ := h
  cases h
  rw [writtenPaths]
  rcases fieldOf?_of_optional hr hlocation with ⟨rfl, hx | hx⟩ | ⟨x, l, hx, hl, rfl⟩
  · rw [hx]
    rfl
  · rw [hx]
    rfl
  · rw [hx]
    simpa [paths] using Location.text_path_of_ofJson? hl

end Verdict

namespace StackResult

/-- The path of the stack and those where its verdicts were found. -/
def paths (s : StackResult) : List StackPath := s.path :: s.verdicts.flatMap Verdict.paths

def fieldNames : List String := ["name", "path", "status", "summary", "error", "verdicts"]

def writtenPaths (v : Json) : List String :=
  ((fieldOf? fieldNames "path" v).bind asStr?).toList ++
    ((fieldOf? fieldNames "verdicts" v).toList.flatMap items).flatMap Verdict.writtenPaths

theorem text_paths_of_ofJson? {v : Json} {s : StackResult} (h : ofJson? v = some s) :
    s.paths.map StackPath.text = writtenPaths v := by
  simp only [ofJson?, bind, Option.bind_eq_some_iff, pure] at h
  obtain ⟨cells, hr, _, -, path, hpath, _, -, _, -, _, -, verdicts, hverdicts, h⟩ := h
  cases h
  obtain ⟨x, hx, hpath⟩ := exists_fieldOf?_of_required hr hpath
  obtain ⟨t, ht, rfl⟩ := Option.map_eq_some_iff.1 hpath
  obtain ⟨y, hy, hverdicts⟩ := exists_fieldOf?_of_required hr hverdicts
  have hplaces := flatMap_of_readItems? (fun _ _ => Verdict.text_paths_of_ofJson?) hverdicts
  rw [← fieldNames] at hx hy
  simp [writtenPaths, paths, hx, hy, ht, List.map_flatMap, hplaces]

end StackResult

namespace CheckReport

def paths (r : CheckReport) : List StackPath := r.results.flatMap StackResult.paths

def writtenPaths (v : Json) : List String :=
  ((fieldOf? ["schema", "tool", "started_at", "finished_at", "gate", "stacks", "data"] "stacks"
    v).toList.flatMap items).flatMap StackResult.writtenPaths

theorem text_paths_of_ofJson? {v : Json} {r : CheckReport} (h : ofJson? v = some r) :
    r.paths.map StackPath.text = writtenPaths v := by
  simp only [ofJson?, bind, Option.bind_eq_some_iff, pure] at h
  obtain ⟨cells, hr, _, -, _, -, _, -, _, -, _, -, results, hresults, _, -, h⟩ := h
  cases h
  obtain ⟨x, hx, hresults⟩ := exists_fieldOf?_of_required hr hresults
  have hpaths := flatMap_of_readItems? (fun _ _ => StackResult.text_paths_of_ofJson?) hresults
  simp [writtenPaths, paths, hx, List.map_flatMap, hpaths]

/-- A text is read as a report when it is JSON, names the format and has the fields. -/
theorem read_eq_ok_iff {text : String} {r : CheckReport} :
    read text = .ok r ↔ ∃ v, Json.read? text = some v ∧
      ((v.get? "schema").bind Json.asStr?).getD "" = schemaName ∧ ofJson? v = some r := by
  unfold read
  cases Json.read? text with
  | none => simp
  | some v =>
    dsimp only
    cases hr : ofJson? v <;> split_ifs <;> simp_all

theorem text_paths_of_read {text : String} {v : Json} {r : CheckReport}
    (hv : Json.read? text = some v) (hr : read text = .ok r) :
    r.paths.map StackPath.text = writtenPaths v := by
  obtain ⟨v', hv', -, hr⟩ := read_eq_ok_iff.1 hr
  obtain rfl := Option.some.inj (hv.symm.trans hv')
  exact text_paths_of_ofJson? hr

theorem read?_text (r : CheckReport) : Json.read? r.text = some r.toJson :=
  Json.read?_prettyText (r.readable_toJson 121)

theorem eq_of_read_text {r r' : CheckReport} (h : read r.text = .ok r') : r' = r := by
  obtain ⟨v, hv, -, hr'⟩ := read_eq_ok_iff.1 h
  obtain rfl := Option.some.inj (r.read?_text.symm.trans hv)
  exact Option.some.inj (hr'.symm.trans r.ofJson?_toJson)

end CheckReport

end StackAudit
