import StackAudit.CheckReport.Decode
import StackAudit.CheckReport.Encode
import StackAudit.Proofs.Json.Reading
import StackAudit.Proofs.Timestamp

/-!
# Reports that are read back

Each part of a report is written as a mapping from which the same part is read: an absent field is
left out, and what is left out is read as absent. A written report nests only a few levels deep, so
its text is read back as well.
-/
namespace StackAudit

namespace Json

/-! ### Fields of a record -/

/-- Reads what is under a field that may be left out. -/
def orAbsent {α : Type} (read : Json → Option α) : Option Json → Option (Option α)
  | none => some none
  | some v => Record.orNull read v

namespace Record

variable {α : Type} (cells : List (String × Json)) (name : String)

@[simp] theorem required_mk (read : Json → Option α) :
    required ⟨false, cells⟩ name read = (cells.lookup name).bind read := rfl

@[simp] theorem optional_mk (read : Json → Option α) :
    optional ⟨false, cells⟩ name read = orAbsent read (cells.lookup name) := by
  unfold optional
  cases cells.lookup name <;> rfl

end Record

@[simp] theorem lookup_optionalField {α : Type} (name : String) (encode : α → Json) (o : Option α)
    (k : String) :
    (optionalField name encode o).lookup k = if k = name then o.map encode else none := by
  cases o with
  | none => simp [optionalField]
  | some a => simp [optionalField, KeyMap.lookup_cons_ite]

theorem keys_optionalField {α : Type} (name : String) (encode : α → Json) (o : Option α) :
    (optionalField name encode o).map Prod.fst = if o.isSome then [name] else [] := by
  cases o <;> rfl

theorem forall_mem_optionalField {α : Type} {name : String} {encode : α → Json} {o : Option α}
    {P : String → Json → Prop} :
    (∀ k v, (k, v) ∈ optionalField name encode o → P k v) ↔ ∀ a ∈ o, P name (encode a) := by
  cases o <;> simp [optionalField]

/-- What an optional field was written for is read back. -/
theorem orAbsent_map {α : Type} {read : Json → Option α} {encode : α → Json} (o : Option α)
    (hnull : ∀ a, encode a ≠ .null) (hread : ∀ a, read (encode a) = some a) :
    orAbsent read (o.map encode) = some o := by
  cases o with
  | none => rfl
  | some a =>
    have ha := hread a
    simp only [Option.map_some, orAbsent]
    cases hv : encode a with
    | null => exact absurd hv (hnull a)
    | _ => simp_all [Record.orNull]

@[simp] theorem readText?_str (s : String) : readText? (.str s) = some s := rfl

@[simp] theorem orAbsent_text (o : Option String) : orAbsent readText? (o.map .str) = some o :=
  orAbsent_map o (by simp) readText?_str

@[simp] theorem readUInt32?_ofUInt32 (n : UInt32) : readUInt32? (ofUInt32 n) = some n := by
  have hnat : (Number.ofUInt32 n).toNat? = some n.toNat := rfl
  simp [readUInt32?, ofUInt32, hnat, n.toNat_lt_size]

theorem readItems?_map {α : Type} {read : Json → Option α} {encode : α → Json} {l : List α}
    (h : ∀ a, read (encode a) = some a) : readItems? read (.arr (l.map encode)) = some l := by
  simp only [readItems?, asArr?, Option.bind_some]
  induction l with
  | nil => rfl
  | cons a l ih => simp [h, ih]

@[simp] theorem readable_ofUInt32 (depth : Nat) (n : UInt32) : Readable depth (ofUInt32 n) :=
  .int _ _

end Json

open Json

/-! ### Reading the parts -/

@[simp] theorem Severity.ofJson?_name (s : Severity) : ofJson? (.str s.name) = some s :=
  ofName?_name s

@[simp] theorem Location.ofJson?_toJson (l : Location) : ofJson? l.toJson = some l := by
  have hdocument : orAbsent readUInt32? (l.document.map ofUInt32) = some l.document :=
    orAbsent_map _ (by simp [ofUInt32]) readUInt32?_ofUInt32
  simp [ofJson?, toJson, Record.ofJson?, KeyMap.lookup_cons_ite, StackPath.ofJson?, asStr?,
    hdocument]

@[simp] theorem Verdict.ofJson?_toJson (v : Verdict) : ofJson? v.toJson = some v := by
  have houtcome : memberNamed? Outcome.all Outcome.name v.outcome.name = some v.outcome := by
    cases v.outcome <;> decide
  have hlocation : orAbsent Location.ofJson? (v.location.map Location.toJson) = some v.location :=
    orAbsent_map _ (by simp [Location.toJson]) Location.ofJson?_toJson
  simp [ofJson?, toJson, Record.ofJson?, KeyMap.lookup_cons_ite, List.lookup_append, readName?,
    houtcome, hlocation]

@[simp] theorem SeverityCounts.ofJson?_toJson (c : SeverityCounts) : ofJson? c.toJson = some c := by
  simp [ofJson?, toJson, Record.ofJson?, KeyMap.lookup_cons_ite]

@[simp] theorem Summary.ofJson?_toJson (s : Summary) : ofJson? s.toJson = some s := by
  have hworst : orAbsent Severity.ofJson? (s.worstSeverity.map fun w => .str w.name) =
      some s.worstSeverity :=
    orAbsent_map _ (by simp) Severity.ofJson?_name
  simp [ofJson?, toJson, Record.ofJson?, KeyMap.lookup_cons_ite, List.lookup_append, hworst]

@[simp] theorem StackResult.ofJson?_toJson (s : StackResult) : ofJson? s.toJson = some s := by
  have hstatus : memberNamed? StackStatus.all StackStatus.name s.status.name = some s.status := by
    cases s.status <;> decide
  simp [ofJson?, toJson, Record.ofJson?, KeyMap.lookup_cons_ite, List.lookup_append,
    StackPath.ofJson?, asStr?, readName?, hstatus, readItems?_map Verdict.ofJson?_toJson]

@[simp] theorem Gate.ofJson?_toJson (g : Gate) : ofJson? g.toJson = some g := by
  obtain ⟨status, failOn, reasons, error⟩ := g
  have hstatus : memberNamed? GateStatus.all GateStatus.name status.name = some status := by
    cases status <;> decide
  cases error <;>
    simp [ofJson?, toJson, Record.ofJson?, Record.defaulted, optionalField,
      KeyMap.lookup_cons_ite, readName?, hstatus, readItems?_map readText?_str, Record.orNull]

@[simp] theorem Tool.ofJson?_toJson (t : Tool) : ofJson? t.toJson = some t := by
  simp [ofJson?, toJson, Record.ofJson?, KeyMap.lookup_cons_ite]

@[simp] theorem Totals.ofJson?_toJson (t : Totals) : ofJson? t.toJson = some t := by
  simp [ofJson?, toJson, Record.ofJson?, KeyMap.lookup_cons_ite]

@[simp] theorem Timestamp.ofJson?_text (t : Timestamp) : ofJson? (.str t.text) = some t := by
  rw [ofJson?, asStr?, Option.bind_some, read?_text]

/-- A report is read from what it is written as. -/
theorem CheckReport.ofJson?_toJson (r : CheckReport) : ofJson? r.toJson = some r := by
  simp [ofJson?, toJson, Record.ofJson?, KeyMap.lookup_cons_ite,
    readItems?_map StackResult.ofJson?_toJson]

/-! ### How deep the parts nest -/

theorem Location.readable_toJson (depth : Nat) (l : Location) : Readable (depth + 1) l.toJson := by
  refine .obj ?_ ?_
  · simp only [List.map_append, List.map_cons, List.map_nil, keys_optionalField]
    split_ifs <;> decide
  · simp [forall_mem_optionalField, Readable.str]

theorem Verdict.readable_toJson (depth : Nat) (v : Verdict) : Readable (depth + 2) v.toJson := by
  refine .obj ?_ ?_
  · simp only [List.map_append, List.map_cons, List.map_nil, keys_optionalField]
    split_ifs <;> decide
  · simp [forall_mem_optionalField, or_imp, forall_and, Readable.str, Location.readable_toJson]

theorem SeverityCounts.readable_toJson (depth : Nat) (c : SeverityCounts) :
    Readable (depth + 1) c.toJson :=
  .obj (by simp) (by simp)

theorem Summary.readable_toJson (depth : Nat) (s : Summary) : Readable (depth + 2) s.toJson := by
  refine .obj ?_ ?_
  · simp only [List.map_append, List.map_cons, List.map_nil, keys_optionalField]
    split_ifs <;> decide
  · simp [forall_mem_optionalField, or_imp, forall_and, Readable.str,
      SeverityCounts.readable_toJson]

theorem StackResult.readable_toJson (depth : Nat) (s : StackResult) :
    Readable (depth + 4) s.toJson := by
  have hverdicts : Readable (depth + 3) (.arr (s.verdicts.map Verdict.toJson)) :=
    .arr (by simp [Verdict.readable_toJson])
  refine .obj ?_ ?_
  · simp only [List.map_append, List.map_cons, List.map_nil, keys_optionalField]
    split_ifs <;> decide
  · simp [forall_mem_optionalField, or_imp, forall_and, Readable.str, hverdicts,
      Summary.readable_toJson (depth + 1)]

theorem Gate.readable_toJson (depth : Nat) (g : Gate) : Readable (depth + 2) g.toJson := by
  have hreasons : Readable (depth + 1) (.arr (g.reasons.map .str)) := .arr (by simp [Readable.str])
  refine .obj ?_ ?_
  · simp only [List.map_append, List.map_cons, List.map_nil, keys_optionalField]
    split_ifs <;> decide
  · simp [forall_mem_optionalField, or_imp, forall_and, Readable.str, hreasons]

theorem Tool.readable_toJson (depth : Nat) (t : Tool) : Readable (depth + 1) t.toJson :=
  .obj (by simp) (by simp [Readable.str])

theorem Totals.readable_toJson (depth : Nat) (t : Totals) : Readable (depth + 1) t.toJson :=
  .obj (by simp) (by simp [Readable.str])

theorem CheckReport.readable_toJson (depth : Nat) (r : CheckReport) :
    Readable (depth + 6) r.toJson := by
  have hresults : Readable (depth + 5) (.arr (r.results.map StackResult.toJson)) :=
    .arr (by simp [StackResult.readable_toJson])
  exact .obj (by simp) (by simp [Readable.str, hresults, Tool.readable_toJson (depth + 4),
    Gate.readable_toJson (depth + 3), Totals.readable_toJson (depth + 4)])

namespace CheckReport

/-- A report of the one format is read back from its text, whatever it holds. -/
theorem read_text (r : CheckReport) (h : r.schema = schemaName) : read r.text = .ok r := by
  have hvalue : Json.read? r.text = some r.toJson := read?_prettyText (r.readable_toJson 121)
  have hschema : (r.toJson.get? "schema").bind asStr? = some r.schema := rfl
  rw [read, hvalue]
  simp only [hschema, Option.getD_some, h, ne_eq, not_true, if_false, ofJson?_toJson]

/-- A report with a stack that could not be read and one with a violation, with texts that are
escaped and a fraction of a second. -/
def sample : CheckReport where
  schema := schemaName
  tool := .this
  startedAt := .epoch
  finishedAt := ⟨2024, 2, 29, 23, 59, 59, 500, 0, by decide⟩
  gate := ⟨.error, .high, ["malformed_stack"], none⟩
  results :=
    [⟨"broken", ⟨"broken"⟩, .error, {}, some "line 1:\t\"key\"\x00\\", []⟩,
     ⟨"größe", ⟨"größe"⟩, .nonCompliant,
      { resourcesEvaluated := 4294967295, worstSeverity := some .low }, none,
      [⟨"logs", "ObjectStorageBucket", "versioning-required", .low, .violation, "😀\n",
        some ⟨⟨"main.yaml"⟩, some 0⟩, none, some ""⟩]⟩]
  data := ⟨"strict", 2, 0, 10, 1, 0⟩

theorem read_text_sample : sample.schema = schemaName ∧ read sample.text = .ok sample :=
  ⟨rfl, read_text sample rfl⟩

end CheckReport

end StackAudit
