import StackAudit.Proofs.CheckReport.RoundTrip
import StackAudit.Proofs.Text.Lines
import StackAudit.Rendering.JsonLines

/-!
# Lines of JSON that are read back

A value on one line holds no line feed, since texts escape them. So the lines of a report are its
records, and each of them is read back.
-/
namespace StackAudit

namespace Json

/-! ### One line -/

theorem hexDigit_ne_newline {n : Nat} (h : n < 16) : Text.hexDigit n ≠ '\n' := by
  have hall : ∀ k < 16, Text.hexDigit k ≠ '\n' := by decide
  exact hall n h

theorem newline_notMem_escapeChar (c : Char) : '\n' ∉ escapeChar c := by
  have hdigit (k : Nat) : '\n' ≠ Text.hexDigit (k % 16) :=
    (hexDigit_ne_newline (Nat.mod_lt k (by decide))).symm
  unfold escapeChar
  split_ifs with hquote hslash h8 hc hn hr ht hcontrol
  any_goals decide
  · simp [Text.hex4, hdigit]
  · simpa using Ne.symm hn

theorem newline_notMem_quote (s : String) : '\n' ∉ quote s := by
  simp [quote, newline_notMem_escapeChar]

/-- The separators hold no line feed. -/
theorem newline_notMem_commaSeparated {parts : List (List Char)} (h : ∀ p ∈ parts, '\n' ∉ p) :
    '\n' ∉ commaSeparated parts := by
  induction parts with
  | nil => simp [commaSeparated]
  | cons p parts ih =>
    obtain ⟨hp, hparts⟩ := List.forall_mem_cons.1 h
    cases parts with
    | nil => exact hp
    | cons q parts =>
      rw [commaSeparated, List.mem_append, List.mem_cons]
      rintro (hmem | hmem | hmem)
      · exact hp hmem
      · exact absurd hmem (by decide)
      · exact ih hparts hmem

/-- A value that can be read back is written on one line. -/
theorem newline_notMem_compact {depth : Nat} {v : Json} (h : Readable depth v) :
    '\n' ∉ v.compact := by
  induction h with
  | null => simp [compact]
  | bool b => cases b <;> simp [compact]
  | int n h =>
    rw [compact]
    intro hmem
    exact absurd (Number.mem_text_int hmem) (by decide)
  | str s => simpa [compact] using newline_notMem_quote s
  | arr _ ih =>
    have hitems := newline_notMem_commaSeparated (List.forall_mem_map.2 ih)
    simpa [compact] using hitems
  | @obj _ fields _ _ ih =>
    have hfield : ∀ e ∈ fields, '\n' ∉ quote e.1 ++ ':' :: compact e.2 := fun e he => by
      simp [newline_notMem_quote, ih e he]
    have hfields := newline_notMem_commaSeparated (List.forall_mem_map.2 hfield)
    simpa [compact] using hfields

theorem newline_notMem_compactText {depth : Nat} {values : List Json}
    (h : ∀ v ∈ values, Readable depth v) : ∀ line ∈ values.map compactText, '\n' ∉ line.toList := by
  refine List.forall_mem_map.2 fun v hv => ?_
  rw [compactText, String.toList_ofList]
  exact newline_notMem_compact (h v hv)

/-! ### Reading lines -/

/-- The values of the lines of a text. -/
def readLines? (s : String) : Option (List Json) := (Text.endedLines s).mapM read?

/-- Values on lines of their own are read back. -/
theorem readLines?_endLines {values : List Json} (h : ∀ v ∈ values, Readable maxDepth v) :
    readLines? (Text.endLines (values.map compactText)) = some values := by
  rw [readLines?, Text.endedLines_endLines_of_notMem (newline_notMem_compactText h)]
  induction values with
  | nil => rfl
  | cons v values ih =>
    obtain ⟨hv, hvalues⟩ := List.forall_mem_cons.1 h
    simp [read?_compactText hv, ih hvalues]

end Json

open Json

/-! ### The records of a report -/

theorem Location.readable_recordField (depth : Nat) (l : Location) :
    Readable (depth + 1) l.recordField := by
  refine .obj (by simp) ?_
  cases l.document <;> simp [Readable.str, Readable.null]

theorem Verdict.readable_toRecord (depth : Nat) (stack : String) (v : Verdict) :
    Readable (depth + 2) (v.toRecord stack) := by
  refine .obj ?_ ?_
  · simp only [List.map_append, List.map_cons, List.map_nil, keys_optionalField]
    split_ifs <;> decide
  · simp [forall_mem_optionalField, or_imp, forall_and, Readable.str,
      Location.readable_recordField]

/-- A stack that could not be read has one record, of its error. -/
theorem StackResult.records_of_some {s : StackResult} {e : String} (h : s.error = some e) :
    s.records = [.obj [("stack", .str s.name), ("error", .str e)]] := by
  rw [records, h]

/-- Any other has a record for each verdict. -/
theorem StackResult.records_of_none {s : StackResult} (h : s.error = none) :
    s.records = s.verdicts.map (Verdict.toRecord s.name) := by
  rw [records, h]

theorem StackResult.readable_of_mem_records (depth : Nat) (s : StackResult) {v : Json}
    (hv : v ∈ s.records) : Readable (depth + 2) v := by
  cases herror : s.error with
  | some e =>
    rw [records_of_some herror] at hv
    obtain rfl := List.mem_singleton.1 hv
    exact .obj (by simp) (by simp [Readable.str])
  | none =>
    rw [records_of_none herror] at hv
    obtain ⟨verdict, -, rfl⟩ := List.mem_map.1 hv
    exact verdict.readable_toRecord depth s.name

theorem CheckReport.readable_of_mem_records (r : CheckReport) :
    ∀ v ∈ r.results.flatMap StackResult.records, Readable maxDepth v := by
  intro v hv
  obtain ⟨s, -, hv⟩ := List.mem_flatMap.1 hv
  exact s.readable_of_mem_records 125 hv

/-- The lines of a report are its records, whatever it holds. -/
theorem CheckReport.readLines?_jsonLines (r : CheckReport) :
    readLines? r.jsonLines = some (r.results.flatMap StackResult.records) :=
  readLines?_endLines r.readable_of_mem_records

/-! ### The records of violations -/

namespace Json

/-- Whether the value is the record of a violation. -/
def recordsViolation (v : Json) : Bool := v.get? "outcome" = some (.str "violation")

theorem recordsViolation_toRecord (stack : String) (v : Verdict) :
    (v.toRecord stack).recordsViolation = v.isViolation := by
  have houtcome : (v.toRecord stack).get? "outcome" = some (.str v.outcome.name) := rfl
  rw [recordsViolation, houtcome, Verdict.isViolation]
  cases v.outcome <;> decide

end Json

/-- The records of a stack tell of its violations, unless it has an error and yet verdicts. -/
theorem StackResult.countP_records {s : StackResult} (h : s.error ≠ none → s.verdicts = []) :
    s.records.countP recordsViolation = s.verdicts.countP Verdict.isViolation := by
  cases herror : s.error with
  | none =>
    rw [records_of_none herror, List.countP_map]
    exact List.countP_congr fun v _ => by rw [Function.comp_apply, recordsViolation_toRecord]
  | some e =>
    rw [records_of_some herror, h (by simp [herror])]
    rfl

end StackAudit
