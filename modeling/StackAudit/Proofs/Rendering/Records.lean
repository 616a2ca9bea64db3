import Mathlib.Data.List.Forall2
import StackAudit.Proofs.Rendering.JsonLines

/-!
# What the records of a report tell

Each line of the report as lines of JSON is one record: of the error of a stack, or else of one of
its verdicts. The record has the fields that there is something to say about, and from these what it
was written for is read back.
-/
namespace StackAudit

namespace Json

/-- The names of the fields of a mapping, in their order. -/
def fieldNames? (v : Json) : Option (List String) := v.asObj?.map (·.map Prod.fst)

end Json

/-- What a record is written for. -/
inductive Recorded where
  /-- The error of a stack that could not be read. -/
  | failure (stack error : String)
  | verdict (stack : String) (v : Verdict)

/-- What there is to record about a stack. -/
def StackResult.recorded (s : StackResult) : List Recorded :=
  match s.error with
  | some e => [.failure s.name e]
  | none => s.verdicts.map (.verdict s.name)

/-- The mapping holds what a verdict on a resource of a stack says, and nothing else. -/
structure Verdict.IsToldBy (v : Verdict) (stack : String) (record : Json) : Prop where
  names : record.fieldNames? = some (["stack", "resource_id", "resource_kind", "rule_key",
    "severity", "outcome", "message"] ++ (if v.location.isSome then ["location"] else []) ++
    (if v.help.isSome then ["help"] else []) ++
    if v.fingerprint.isSome then ["fingerprint"] else [])
  stack : record.get? "stack" = some (.str stack)
  resourceId : record.get? "resource_id" = some (.str v.resourceId)
  resourceKind : record.get? "resource_kind" = some (.str v.resourceKind)
  ruleKey : record.get? "rule_key" = some (.str v.ruleKey)
  severity : record.get? "severity" = some (.str v.severity.name)
  outcome : record.get? "outcome" = some (.str v.outcome.name)
  message : record.get? "message" = some (.str v.message)
  /-- A location without a document has `null` for it. -/
  location : record.get? "location" = v.location.map fun l =>
    .obj [("path", .str l.path.text), ("document", (l.document.map .ofUInt32).getD .null)]
  help : record.get? "help" = v.help.map .str
  fingerprint : record.get? "fingerprint" = v.fingerprint.map .str

namespace Recorded

/-- The mapping holds what is to be recorded, and nothing else. -/
def IsToldBy : Recorded → Json → Prop
  | .failure stack e, record => record.fieldNames? = some ["stack", "error"] ∧
      record.get? "stack" = some (.str stack) ∧ record.get? "error" = some (.str e)
  | .verdict stack v, record => v.IsToldBy stack record

/-- Reads a record back, as one of an error if it has that field. -/
def ofJson? (record : Json) : Option Recorded := do
  let stack ← (record.get? "stack").bind Json.asStr?
  match record.get? "error" with
  | some e => e.asStr?.map (.failure stack)
  | none => (Verdict.ofJson? record).map (.verdict stack)

end Recorded

open Json

/-! ### Verdicts -/

/-- The document of a location is read back, whether it is there or `null` stands for it. -/
@[simp] theorem Location.ofJson?_recordField (l : Location) : ofJson? l.recordField = some l := by
  obtain ⟨path, document⟩ := l
  cases document with
  | none =>
    simp [ofJson?, recordField, Record.ofJson?, KeyMap.lookup_cons_ite, StackPath.ofJson?, asStr?,
      orAbsent, Record.orNull]
  | some n =>
    have hdocument : orAbsent readUInt32? (some (ofUInt32 n)) = some (some n) :=
      orAbsent_map (some n) (by simp [ofUInt32]) readUInt32?_ofUInt32
    simp [ofJson?, recordField, Record.ofJson?, KeyMap.lookup_cons_ite, StackPath.ofJson?, asStr?,
      hdocument]

/-- The fields of a record are looked up one after the other. -/
theorem Verdict.get?_toRecord (v : Verdict) (stack k : String) :
    (v.toRecord stack).get? k =
      (([("stack", .str stack), ("resource_id", .str v.resourceId),
        ("resource_kind", .str v.resourceKind), ("rule_key", .str v.ruleKey),
        ("severity", .str v.severity.name), ("outcome", .str v.outcome.name),
        ("message", .str v.message)] : List (String × Json)).lookup k).or
      (((if k = "location" then v.location.map Location.recordField else none).or
        (if k = "help" then v.help.map .str else none)).or
        (if k = "fingerprint" then v.fingerprint.map .str else none)) := by
  simp only [toRecord, get?, asObj?, Option.bind_some, List.lookup_append, lookup_optionalField,
    Option.or_assoc]

theorem Verdict.isToldBy_toRecord (v : Verdict) (stack : String) :
    v.IsToldBy stack (v.toRecord stack) := by
  constructor
  case names =>
    simp only [fieldNames?, toRecord, asObj?, Option.map_some, List.map_append, List.map_cons,
      List.map_nil, keys_optionalField]
  case location =>
    simp [get?_toRecord, KeyMap.lookup_cons_ite]
    rfl
  all_goals simp [get?_toRecord, KeyMap.lookup_cons_ite]

theorem Verdict.ofJson?_toRecord (v : Verdict) (stack : String) :
    ofJson? (v.toRecord stack) = some v := by
  have houtcome : memberNamed? Outcome.all Outcome.name v.outcome.name = some v.outcome := by
    cases v.outcome <;> decide
  have hnull (l : Location) : l.recordField ≠ .null := by simp [Location.recordField]
  have hlocation : orAbsent Location.ofJson? (v.location.map Location.recordField) =
      some v.location :=
    orAbsent_map _ hnull Location.ofJson?_recordField
  simp [ofJson?, toRecord, Record.ofJson?, KeyMap.lookup_cons_ite, List.lookup_append, readName?,
    houtcome, hlocation]

/-! ### Lines -/

/-- The line is a record that tells of the entry, and from which the entry is read back. -/
def Recorded.IsOnLine (entry : Recorded) (line : String) : Prop :=
  ∃ record, read? line = some record ∧ entry.IsToldBy record ∧ Recorded.ofJson? record = some entry

theorem StackResult.forall₂_records (s : StackResult) :
    List.Forall₂ Recorded.IsOnLine s.recorded (s.records.map compactText) := by
  have hread : ∀ record ∈ s.records, read? record.compactText = some record := fun record hmem =>
    read?_compactText (s.readable_of_mem_records 125 hmem)
  rw [List.forall₂_map_right_iff]
  cases herror : s.error with
  | some e =>
    have hrecorded : s.recorded = [.failure s.name e] := by rw [recorded, herror]
    rw [records_of_some herror, List.forall_mem_singleton] at hread
    rw [records_of_some herror, hrecorded]
    exact .cons ⟨_, hread, ⟨rfl, rfl, rfl⟩, rfl⟩ .nil
  | none =>
    have hrecorded : s.recorded = s.verdicts.map (.verdict s.name) := by rw [recorded, herror]
    rw [records_of_none herror, List.forall_mem_map] at hread
    rw [records_of_none herror, hrecorded, List.forall₂_map_left_iff, List.forall₂_map_right_iff,
      List.forall₂_same]
    intro v hv
    have hentry : Recorded.ofJson? (v.toRecord s.name) = some (.verdict s.name v) := by
      simp [Recorded.ofJson?, Verdict.get?_toRecord, KeyMap.lookup_cons_ite, asStr?,
        Verdict.ofJson?_toRecord]
    exact ⟨_, hread v hv, v.isToldBy_toRecord s.name, hentry⟩

/-- The lines of the report tell, in its order, of the errors of stacks and of the verdicts on the
others, and of nothing else. Behind the last line feed nothing is left. -/
theorem CheckReport.jsonLines_tell (r : CheckReport) :
    ∃ lines, Text.pieces '\n' r.jsonLines = lines ++ [""] ∧
      List.Forall₂ Recorded.IsOnLine (r.results.flatMap StackResult.recorded) lines := by
  have hlines := newline_notMem_compactText r.readable_of_mem_records
  refine ⟨(r.results.flatMap StackResult.records).map compactText, ?_, ?_⟩
  · rw [jsonLines, Text.pieces_endLines, Text.flatMap_pieces_of_notMem hlines]
  · rw [List.map_flatMap]
    refine List.rel_flatMap (List.forall₂_same.2 fun s _ => rfl) ?_
    intro s _ hs
    exact hs ▸ s.forall₂_records

end StackAudit
