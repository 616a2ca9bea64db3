import StackAudit.Proofs.Text.Lines
import StackAudit.Rendering.Markdown
import StackAudit.Rendering.Plain

/-!
# The totals that a rendering shows

As plain text a report ends with a line of named fields, and as Markdown it starts with a list of
totals. Whatever the texts of the report hold, each of these numbers can be found in its place.
-/
namespace StackAudit

/-! ### Fields on a line -/

namespace Text

/-- A text that can be told from others on the same line. -/
def IsWord (s : String) : Prop := ' ' ∉ s.toList ∧ '\n' ∉ s.toList

instance (s : String) : Decidable (IsWord s) :=
  inferInstanceAs (Decidable (' ' ∉ s.toList ∧ '\n' ∉ s.toList))

theorem isWord_toString (n : Nat) : IsWord (toString n) :=
  ⟨notMem_toString (by decide) n, notMem_toString (by decide) n⟩

theorem IsWord.append {s t : String} (hs : IsWord s) (ht : IsWord t) : IsWord (s ++ t) := by
  rw [IsWord, String.toList_append, List.mem_append, List.mem_append]
  exact ⟨not_or.2 ⟨hs.1, ht.1⟩, not_or.2 ⟨hs.2, ht.2⟩⟩

/-- A name and a value. -/
def field (f : String × String) : String := f.1 ++ "=" ++ f.2

/-- The fields among the words of the last line. -/
def lastFields (s : String) : List (String × String) :=
  ((endedLines s).getLast?.toList.flatMap (pieces ' ')).filterMap (splitFirst '=')

/-- The fields behind the title of a last line are read back. -/
theorem lastFields_endLines (lines : List String) {title : String}
    {fields : List (String × String)} (htitle : IsWord title ∧ splitFirst '=' title = none)
    (hnames : ∀ name ∈ fields.map Prod.fst, IsWord name ∧ '=' ∉ name.toList)
    (hvalues : ∀ value ∈ fields.map Prod.snd, IsWord value) :
    lastFields (endLines (lines ++ [" ".intercalate (title :: fields.map field)])) = fields := by
  rw [List.forall_mem_map] at hnames hvalues
  have hfields : ∀ f ∈ fields, IsWord (field f) := fun f hf =>
    ((hnames f hf).1.append (by decide)).append (hvalues f hf)
  have hwords : ∀ w ∈ title :: fields.map field, IsWord w :=
    List.forall_mem_cons.2 ⟨htitle.1, List.forall_mem_map.2 hfields⟩
  have hpieces : pieces ' ' (" ".intercalate (title :: fields.map field)) =
      title :: fields.map field :=
    pieces_intercalate (List.cons_ne_nil _ _) fun w hw => (hwords w hw).1
  have hread : (fields.map field).filterMap (splitFirst '=') = fields := by
    have hfield : ∀ f ∈ fields, (splitFirst '=' ∘ field) f = some f := fun f hf =>
      splitFirst_append (hnames f hf).2 f.2
    rw [List.filterMap_map, List.filterMap_congr hfield, List.filterMap_some]
  have hline : '\n' ∉ (" ".intercalate (title :: fields.map field)).toList :=
    (notMem_intercalate_iff (by decide)).2 fun w hw => (hwords w hw).2
  rw [lastFields, getLast?_endedLines _ hline, Option.toList_some, List.flatMap_singleton, hpieces,
    List.filterMap_cons_none htitle.2, hread]

end Text

theorem Severity.isWord_name (s : Severity) : Text.IsWord s.name := by
  cases s <;> decide

theorem GateStatus.isWord_name (s : GateStatus) : Text.IsWord s.name := by
  cases s <;> decide

namespace CheckReport

/-! ### Plain text -/

/-- What the last line says, by name. -/
def summaryFields (r : CheckReport) : List (String × String) :=
  [("stacks", toString r.results.length),
   ("resources", toString (r.total Summary.resourcesEvaluated)),
   ("violations", toString (r.total Summary.violationCount)),
   ("passes", toString (r.total Summary.passCount)),
   ("worst", (r.worstSeverity.map Severity.name).getD "none"),
   ("gate", r.gate.status.name),
   ("fail_on", r.gate.failOn.name)]

theorem summaryLine_eq (r : CheckReport) :
    r.summaryLine = " ".intercalate ("summary:" :: r.summaryFields.map Text.field) := by
  unfold summaryLine summaryFields
  -- Both sides are the same constants around the same values.
  generalize toString r.results.length = results, toString (r.total _) = resources,
    toString (r.total Summary.violationCount) = violations,
    toString (r.total Summary.passCount) = passes, (r.worstSeverity.map _).getD _ = worst,
    r.gate.status.name = gate, r.gate.failOn.name = failOn
  rw [← String.toList_inj]
  simp only [Text.field, List.map_cons, List.map_nil, String.intercalate_cons_cons,
    String.intercalate_singleton, String.toList_append, List.append_assoc]
  rfl

/-- The last line of a report as text is read back. -/
theorem lastFields_plainText (r : CheckReport) :
    Text.lastFields r.plainText = r.summaryFields := by
  have hnames : r.summaryFields.map Prod.fst =
      ["stacks", "resources", "violations", "passes", "worst", "gate", "fail_on"] := rfl
  rw [plainText, summaryLine_eq]
  refine Text.lastFields_endLines _ (by decide) (by rw [hnames]; decide) ?_
  have hworst : Text.IsWord ((r.worstSeverity.map Severity.name).getD "none") := by
    cases r.worstSeverity with
    | none => decide
    | some s => exact s.isWord_name
  simp only [summaryFields, List.map_cons, List.map_nil, List.forall_mem_cons]
  exact ⟨Text.isWord_toString _, Text.isWord_toString _, Text.isWord_toString _,
    Text.isWord_toString _, hworst, r.gate.status.isWord_name, r.gate.failOn.isWord_name, by simp⟩

/-! ### Markdown -/

/-- What stands before the number of violations. -/
def markdownLead (g : Gate) (profile : String) (results : Nat) : String :=
  let gate := Text.asciiUpper g.status.name
  s!"# Stackguard report\n\n- Gate: **{gate}** (fail on `{g.failOn.name}`, " ++
    s!"profile `{profile}`)\n- Stacks: {results}\n- Violations: "

/-- The number of violations in the head of a report as Markdown. -/
def violationsShown? (r : CheckReport) (text : String) : Option String :=
  let lead := markdownLead r.gate r.data.profile r.results.length
  (Text.behind? lead text).bind fun rest => (Text.splitFirst ' ' rest).map Prod.fst

theorem exists_markdown_eq (r : CheckReport) :
    ∃ rest, r.markdown = markdownLead r.gate r.data.profile r.results.length ++
      (toString (r.total Summary.violationCount) ++ " " ++ rest) := by
  unfold markdown markdownHead markdownLead
  simp only [List.cons_append, List.nil_append, Text.endLines_cons]
  generalize Text.asciiUpper r.gate.status.name = gate, r.gate.failOn.name = failOn,
    r.data.profile = profile, toString r.results.length = results,
    toString (r.total Summary.violationCount) = violations,
    toString (r.total Summary.passCount) = passes, Text.endLines _ = body
  refine ⟨"/ Passes: " ++ passes ++ "\n\n" ++ body, ?_⟩
  rw [← String.toList_inj]
  simp only [String.toList_append, List.append_assoc]
  rfl

/-- The number of violations in the head of a report as Markdown is read back. -/
theorem violationsShown?_markdown (r : CheckReport) :
    r.violationsShown? r.markdown = some (toString (r.total Summary.violationCount)) := by
  obtain ⟨rest, hrest⟩ := r.exists_markdown_eq
  have hnumber : Text.splitFirst ' ' (toString (r.total Summary.violationCount) ++ " " ++ rest) =
      some (toString (r.total Summary.violationCount), rest) :=
    Text.splitFirst_append (Text.isWord_toString _).1 rest
  rw [violationsShown?, hrest, Text.behind?_append, Option.bind_some, hnumber, Option.map_some]

end CheckReport

end StackAudit
