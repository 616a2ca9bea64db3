import StackAudit.Evaluation

/-!
# Rules that decide a property

A rule decides a property of a resource when it reaches a conclusion, and passes the resource exactly
when the property holds. At most one property is decided, up to equivalence, so what a rule really
decides settles whether it decides something else.
-/
namespace StackAudit

/-- The rule reaches a conclusion: a pass if the property holds, and else a violation. -/
def Rule.Decides (r : Rule) (s : Resource) (g : Graph) (P : Prop) : Prop :=
  ∃ e, r.judge s g = .ok e ∧ (e.outcome = .pass ↔ P) ∧ (e.outcome = .violation ↔ ¬P)

/-- The verdict is a pass if the property holds, and else a violation. A rule that fails to conclude
gives a violation as well. -/
def Rule.Reports (r : Rule) (s : Resource) (g : Graph) (P : Prop) : Prop :=
  ((Evaluation.ofRule r s g).outcome = .pass ↔ P) ∧
    ((Evaluation.ofRule r s g).outcome = .violation ↔ ¬P)

namespace Rule

variable {r : Rule} {s : Resource} {g : Graph} {P Q : Prop}

theorem decides_of_judge {e : Evaluation} (he : r.judge s g = .ok e)
    (hpass : P → e.outcome = .pass) (hviolation : ¬P → e.outcome = .violation) :
    r.Decides s g P := by
  refine ⟨e, he, ?_⟩
  by_cases hP : P
  · simp [hP, hpass hP]
  · simp [hP, hviolation hP]

theorem not_decides_of_error {f : Fault} (hf : r.judge s g = .error f) : ¬r.Decides s g P := by
  rintro ⟨e, he, -⟩
  rw [hf] at he
  cases he

theorem Decides.reports (h : r.Decides s g P) : r.Reports s g P := by
  obtain ⟨e, he, hpass, hviolation⟩ := h
  rw [Reports, Evaluation.ofRule, he]
  exact ⟨hpass, hviolation⟩

theorem reports_of_error {f : Fault} (hf : r.judge s g = .error f) (hP : ¬P) :
    r.Reports s g P := by
  rw [Reports, Evaluation.ofRule, hf]
  simp [Evaluation.violation, hP]

/-- What is reported for one property is reported for the equivalent ones and no others. -/
theorem Reports.iff (h : r.Reports s g P) : r.Reports s g Q ↔ (P ↔ Q) := by
  rw [Reports, h.1, h.2]
  exact ⟨And.left, fun hPQ => ⟨hPQ, not_congr hPQ⟩⟩

theorem Decides.iff (h : r.Decides s g P) : r.Decides s g Q ↔ (P ↔ Q) := by
  constructor
  · intro h'
    exact h.reports.iff.1 h'.reports
  · intro hPQ
    rwa [← propext hPQ]

end Rule

end StackAudit
