import Mathlib.Algebra.GroupWithZero.Nat
import Mathlib.Data.List.Forall2
import StackAudit.Proofs.Rendering.Headline

/-!
# The lines of a report as plain text

Messages and errors are put on one line before they are printed. Names of stacks, ids and keys are
printed as they are, so the text has a line for each thing that it tells exactly when none of them
holds a line break.
-/
namespace StackAudit

namespace Text

/-- The text holds no line break. -/
def IsUnbroken (s : String) : Prop := '\n' ∉ s.toList ∧ '\r' ∉ s.toList

instance (s : String) : Decidable (IsUnbroken s) :=
  inferInstanceAs (Decidable ('\n' ∉ s.toList ∧ '\r' ∉ s.toList))

theorem isUnbroken_append_iff {s t : String} :
    IsUnbroken (s ++ t) ↔ IsUnbroken s ∧ IsUnbroken t := by
  simp only [IsUnbroken, String.toList_append, List.mem_append, not_or]
  exact and_and_and_comm

theorem isUnbroken_toString (n : Nat) : IsUnbroken (toString n) :=
  ⟨notMem_toString (by decide) n, notMem_toString (by decide) n⟩

/-- A character of a text is one of its lines or ends one of them. -/
theorem mem_endLines_iff {lines : List String} {c : Char} (hc : c ≠ '\n') :
    c ∈ (endLines lines).toList ↔ ∃ line ∈ lines, c ∈ line.toList := by
  induction lines with
  | nil => simp
  | cons line lines ih =>
    rw [endLines_cons, String.toList_append, String.toList_append, List.mem_append,
      List.mem_append, ih, List.exists_mem_cons_iff]
    simp [hc]

theorem one_lt_length_pieces {sep : Char} {s : String} (h : sep ∈ s.toList) :
    1 < (pieces sep s).length := by
  obtain ⟨front, rest, hs⟩ := List.append_of_mem h
  have hsplit : s = String.ofList front ++ String.singleton sep ++ String.ofList rest := by
    rw [← String.toList_inj, hs]
    simp
  have hfront := List.length_pos_of_ne_nil (pieces_ne_nil sep (String.ofList front))
  have hrest := List.length_pos_of_ne_nil (pieces_ne_nil sep (String.ofList rest))
  rw [hsplit, pieces_append, List.length_append]
  omega

/-- There are at least as many lines as were written, and more if one of them held a line feed. -/
theorem length_endedLines_endLines (lines : List String) :
    lines.length ≤ (endedLines (endLines lines)).length ∧
      ((endedLines (endLines lines)).length = lines.length ↔
        ∀ line ∈ lines, '\n' ∉ line.toList) := by
  rw [endedLines_endLines]
  induction lines with
  | nil => simp
  | cons line lines ih =>
    obtain ⟨hle, heq⟩ := ih
    rw [List.flatMap_cons, List.length_append, List.length_cons, List.forall_mem_cons, ← heq]
    by_cases hline : '\n' ∈ line.toList
    · have hlong := one_lt_length_pieces hline
      constructor
      · omega
      · constructor
        · omega
        · intro h
          exact absurd hline h.1
    · rw [pieces_of_notMem hline, List.length_singleton]
      constructor
      · omega
      · constructor
        · intro h
          exact ⟨hline, by omega⟩
        · intro h
          omega

end Text

open Text (IsUnbroken isUnbroken_append_iff)

theorem Severity.isUnbroken_name (s : Severity) : IsUnbroken s.name := by
  cases s <;> decide

theorem Outcome.isUnbroken_name (o : Outcome) : IsUnbroken o.name := by
  cases o <;> decide

theorem StackStatus.isUnbroken_name (s : StackStatus) : IsUnbroken s.name := by
  cases s <;> decide

theorem GateStatus.isUnbroken_name (s : GateStatus) : IsUnbroken s.name := by
  cases s <;> decide

/-- Flattening leaves no line break. -/
theorem notMem_flattenBreaks (cs : List Char) :
    '\n' ∉ flattenBreaks cs ∧ '\r' ∉ flattenBreaks cs := by
  fun_induction flattenBreaks cs with
  | case1 r ih => simpa using ih
  | case2 c r _ _ ih => simpa using ih
  | case3 c r _ hc ih =>
    obtain ⟨hfeed, hreturn⟩ := not_or.1 hc
    simp only [List.mem_cons, not_or]
    exact ⟨⟨Ne.symm hfeed, ih.1⟩, Ne.symm hreturn, ih.2⟩
  | case4 => simp

theorem isUnbroken_onOneLine (s : String) : IsUnbroken (onOneLine s) := by
  rw [IsUnbroken, onOneLine, String.toList_ofList]
  exact notMem_flattenBreaks s.toList

/-! ### Single lines -/

/-- What the line of a verdict says in front of the message. -/
def Verdict.lineStart (v : Verdict) : String :=
  s!"  {v.resourceId} {v.ruleKey} {v.severity.name} {v.outcome.name}: "

/-- What the lines about a stack start with: a title, an error if there is one, and the verdicts. -/
def StackResult.lineStarts (s : StackResult) : List String :=
  [s!"stack {s.name}: "] ++ (s.error.map fun _ => "  error: ").toList ++
    s.verdicts.map Verdict.lineStart

theorem Verdict.isUnbroken_line_iff (v : Verdict) :
    IsUnbroken v.line ↔ IsUnbroken v.resourceId ∧ IsUnbroken v.ruleKey := by
  have hline : v.line = "  " ++ v.resourceId ++ " " ++ v.ruleKey ++ " " ++ v.severity.name ++ " " ++
      v.outcome.name ++ ": " ++ onOneLine v.message := rfl
  have hgap : IsUnbroken "  " ∧ IsUnbroken " " ∧ IsUnbroken ": " := by decide
  rw [hline]
  simp only [isUnbroken_append_iff, v.severity.isUnbroken_name, v.outcome.isUnbroken_name,
    isUnbroken_onOneLine, hgap, and_true, true_and]

theorem StackResult.forall_lines_iff (s : StackResult) : (∀ line ∈ s.lines, IsUnbroken line) ↔
    IsUnbroken s.name ∧ ∀ v ∈ s.verdicts, IsUnbroken v.resourceId ∧ IsUnbroken v.ruleKey := by
  have htitle : IsUnbroken s!"stack {s.name}: {s.status.name}" ↔ IsUnbroken s.name := by
    have hgap : IsUnbroken "stack " ∧ IsUnbroken ": " ∧ IsUnbroken "" := by decide
    simp only [toString, isUnbroken_append_iff, s.status.isUnbroken_name, hgap, and_true, true_and]
  have herror : ∀ line ∈ (s.error.map ("  error: " ++ onOneLine ·)).toList, IsUnbroken line := by
    intro line hline
    rw [Option.mem_toList, Option.map_eq_some_iff] at hline
    obtain ⟨e, -, rfl⟩ := hline
    exact isUnbroken_append_iff.2 ⟨by decide, isUnbroken_onOneLine e⟩
  rw [lines, List.forall_mem_append, List.forall_mem_append, List.forall_mem_singleton,
    List.forall_mem_map, htitle]
  simp only [Verdict.isUnbroken_line_iff]
  constructor
  · intro h
    exact ⟨h.1.1, h.2⟩
  · intro h
    exact ⟨⟨h.1, herror⟩, h.2⟩

theorem StackResult.starts_lines (s : StackResult) :
    List.Forall₂ (fun start line => ∃ rest, line = start ++ rest) s.lineStarts s.lines := by
  rw [lineStarts, lines]
  refine List.rel_append (List.rel_append (.cons ⟨s.status.name, rfl⟩ .nil) ?_) ?_
  · cases s.error with
    | none => exact .nil
    | some e => exact .cons ⟨onOneLine e, rfl⟩ .nil
  · rw [List.forall₂_map_left_iff, List.forall₂_map_right_iff, List.forall₂_same]
    intro v _
    exact ⟨onOneLine v.message, rfl⟩

namespace CheckReport

/-- The lines of the report as they are put together. -/
def lines (r : CheckReport) : List String := r.results.flatMap StackResult.lines ++ [r.summaryLine]

def lineStarts (r : CheckReport) : List String :=
  r.results.flatMap StackResult.lineStarts ++ ["summary:"]

/-- The text of the report has one line for each stack, each error, each verdict and the summary,
and no carriage return. The lines start with what they are about, in the order of the report. -/
structure IsLineOriented (r : CheckReport) : Prop where
  count : (Text.endedLines r.plainText).length =
    (r.results.map fun s => 1 + s.error.toList.length + s.verdicts.length).sum + 1
  noReturn : '\r' ∉ r.plainText.toList
  starts : List.Forall₂ (fun start line => ∃ rest, line = start ++ rest) r.lineStarts
    (Text.endedLines r.plainText)

theorem isUnbroken_summaryLine (r : CheckReport) : IsUnbroken r.summaryLine := by
  have hworst : IsUnbroken ((r.worstSeverity.map Severity.name).getD "none") := by
    cases r.worstSeverity with
    | none => decide
    | some s => exact s.isUnbroken_name
  have hnames : ∀ f ∈ r.summaryFields.map Prod.fst, IsUnbroken f := by
    have heq : r.summaryFields.map Prod.fst =
        ["stacks", "resources", "violations", "passes", "worst", "gate", "fail_on"] := rfl
    rw [heq]
    decide
  have hvalues : ∀ f ∈ r.summaryFields.map Prod.snd, IsUnbroken f := by
    simp only [summaryFields, List.map_cons, List.map_nil, List.forall_mem_cons]
    exact ⟨Text.isUnbroken_toString _, Text.isUnbroken_toString _, Text.isUnbroken_toString _,
      Text.isUnbroken_toString _, hworst, r.gate.status.isUnbroken_name,
      r.gate.failOn.isUnbroken_name, by simp⟩
  have hwords : ∀ w ∈ "summary:" :: r.summaryFields.map Text.field, IsUnbroken w := by
    rw [List.forall_mem_cons, List.forall_mem_map]
    refine ⟨by decide, fun f hf => ?_⟩
    have hname := hnames f.1 (List.mem_map_of_mem hf)
    have hvalue := hvalues f.2 (List.mem_map_of_mem hf)
    exact isUnbroken_append_iff.2 ⟨isUnbroken_append_iff.2 ⟨hname, by decide⟩, hvalue⟩
  rw [summaryLine_eq]
  exact ⟨(Text.notMem_intercalate_iff (by decide)).2 fun w hw => (hwords w hw).1,
    (Text.notMem_intercalate_iff (by decide)).2 fun w hw => (hwords w hw).2⟩

theorem length_lines (r : CheckReport) : r.lines.length =
    (r.results.map fun s => 1 + s.error.toList.length + s.verdicts.length).sum + 1 := by
  have hstack (s : StackResult) :
      s.lines.length = 1 + s.error.toList.length + s.verdicts.length := by
    simp [StackResult.lines, Option.length_toList]
    omega
  simp only [lines, List.length_append, List.length_flatMap, List.length_singleton, hstack]

theorem starts_lines (r : CheckReport) :
    List.Forall₂ (fun start line => ∃ rest, line = start ++ rest) r.lineStarts r.lines := by
  rw [lineStarts, lines]
  refine List.rel_append (List.rel_flatMap (List.forall₂_same.2 fun s _ => rfl) ?_) (.cons ?_ .nil)
  · intro s _ hs
    exact hs ▸ s.starts_lines
  · rw [summaryLine_eq, String.intercalate_cons_of_ne_nil (by simp [summaryFields])]
    exact ⟨_, String.append_assoc⟩

theorem forall_lines_iff (r : CheckReport) : (∀ line ∈ r.lines, IsUnbroken line) ↔
    ∀ s ∈ r.results, IsUnbroken s.name ∧
      ∀ v ∈ s.verdicts, IsUnbroken v.resourceId ∧ IsUnbroken v.ruleKey := by
  rw [lines, List.forall_mem_append, List.forall_mem_singleton]
  simp only [List.forall_mem_flatMap, StackResult.forall_lines_iff, r.isUnbroken_summaryLine,
    and_true]

/-- As plain text a report has the lines that it should have exactly when no name of a stack, no id
of a resource and no key of a rule in it holds a line break. -/
theorem isLineOriented_iff (r : CheckReport) : r.IsLineOriented ↔
    ∀ s ∈ r.results, IsUnbroken s.name ∧
      ∀ v ∈ s.verdicts, IsUnbroken v.resourceId ∧ IsUnbroken v.ruleKey := by
  have htext : r.plainText = Text.endLines r.lines := rfl
  rw [← forall_lines_iff]
  constructor
  · intro h
    have hcount := h.count
    rw [htext, ← length_lines, (Text.length_endedLines_endLines _).2] at hcount
    intro line hline
    refine ⟨hcount line hline, fun hreturn => h.noReturn ?_⟩
    rw [htext, Text.mem_endLines_iff (by decide)]
    exact ⟨line, hline, hreturn⟩
  · intro h
    have hlines : Text.endedLines r.plainText = r.lines := by
      rw [htext, Text.endedLines_endLines_of_notMem fun line hline => (h line hline).1]
    refine ⟨?_, ?_, ?_⟩
    · rw [hlines, length_lines]
    · rw [htext, Text.mem_endLines_iff (by decide)]
      rintro ⟨line, hline, hreturn⟩
      exact (h line hline).2 hreturn
    · rw [hlines]
      exact r.starts_lines

/-- A violation on a resource with a line break in its id. -/
def forgedVerdict : Verdict where
  resourceId := "logs no-public-acl critical pass: ok\n  web"
  resourceKind := "ObjectStorageBucket"
  ruleKey := "no-public-acl"
  severity := .critical
  outcome := .violation
  message := "public"
  location := none
  help := none
  fingerprint := none

def forgedReport : CheckReport where
  schema := schemaName
  tool := .this
  startedAt := .epoch
  finishedAt := .epoch
  gate := ⟨.fail, .low, [], none⟩
  results := [⟨"web", ⟨"web"⟩, .nonCompliant, {}, none, [forgedVerdict]⟩]
  data := ⟨"strict", 1, 1, 10, 1, 1⟩

/-- The text shows a pass that is not in the report. -/
theorem not_isLineOriented_forged :
    "  logs no-public-acl critical pass: ok" ∈ Text.endedLines forgedReport.plainText ∧
      ¬forgedReport.IsLineOriented := by
  have htext : forgedReport.plainText = Text.endLines forgedReport.lines := rfl
  have hline : forgedVerdict.line ∈ forgedReport.lines := by
    simp [lines, StackResult.lines, forgedReport]
  constructor
  · rw [htext, Text.endedLines_endLines]
    exact List.mem_flatMap.2 ⟨_, hline, by decide +kernel⟩
  · intro h
    have hcount := h.count
    rw [htext, ← length_lines, (Text.length_endedLines_endLines _).2] at hcount
    exact hcount _ hline (by decide +kernel)

end CheckReport

end StackAudit
