import Mathlib.Data.List.DropRight
import StackAudit.Text.Blank

/-!
# Blank texts

Trimming leaves nothing of a text exactly when it has no character that is not blank, and all of it
when neither its first nor its last character is blank. What is blank around a text does not count.
-/
namespace StackAudit.Text

theorem dropEndWhile_eq_nil_iff {p : Char → Bool} {cs : List Char} :
    dropEndWhile p cs = [] ↔ ∀ c ∈ cs, p c = true :=
  List.rdropWhile_eq_nil_iff

/-- What is dropped at the end goes into the first part only when all of the second is dropped. -/
theorem dropEndWhile_append (p : Char → Bool) (l r : List Char) :
    dropEndWhile p (l ++ r) =
      if dropEndWhile p r = [] then dropEndWhile p l else l ++ dropEndWhile p r := by
  simp only [dropEndWhile, List.reverse_append, List.dropWhile_append, List.isEmpty_iff,
    List.reverse_eq_nil_iff]
  split
  · rfl
  · rw [List.reverse_append, List.reverse_reverse]

/-- What is dropped in front is blank anyway. -/
theorem dropAroundWhile_eq_nil_iff {p : Char → Bool} {cs : List Char} :
    dropAroundWhile p cs = [] ↔ ∀ c ∈ cs, p c = true := by
  rw [dropAroundWhile, dropEndWhile_eq_nil_iff]
  constructor
  · intro h c hc
    rw [← List.takeWhile_append_dropWhile (p := p) (l := cs), List.mem_append] at hc
    rcases hc with hc | hc
    · exact List.mem_takeWhile_imp hc
    · exact h c hc
  · intro h c hc
    exact h c ((List.dropWhile_sublist p).mem hc)

theorem trim_eq_empty_iff {s : String} : trim s = "" ↔ IsBlankText s := by
  rw [← String.toList_inj, toList_trim]
  exact dropAroundWhile_eq_nil_iff

theorem trimmed?_eq_some_iff {s t : String} :
    trimmed? s = some t ↔ ¬IsBlankText s ∧ trim s = t := by
  rw [trimmed?, ← trim_eq_empty_iff]
  by_cases h : trim s = "" <;> simp [h]

/-- A trimmed text ends with a character that is not blank, and so does what stands at its end. -/
theorem not_isBlankText_of_suffix_trim {s t : String} (h : t.toList <:+ (trim s).toList)
    (hne : t ≠ "") : ¬IsBlankText t := by
  have hchars : t.toList ≠ [] := by simpa using hne
  obtain ⟨front, hfront⟩ := h
  have htrimmed : (s.toList.dropWhile isBlank).rdropWhile isBlank = front ++ t.toList := by
    rw [hfront, toList_trim]
    rfl
  have hlast := List.rdropWhile_last_not isBlank (s.toList.dropWhile isBlank)
    (by simp [htrimmed, hchars])
  simp only [htrimmed, List.getLast_append_of_ne_nil _ hchars] at hlast
  exact fun hblank => hlast (hblank _ (List.getLast_mem hchars))

theorem not_isBlankText_trim {s : String} (h : ¬IsBlankText s) : ¬IsBlankText (trim s) := by
  rw [← trim_eq_empty_iff] at h
  exact not_isBlankText_of_suffix_trim List.suffix_rfl h

/-! ### Trimmed texts -/

/-- A text, with nothing but blank characters around it. -/
def IsPadded (s padded : String) : Prop :=
  ∃ front back, IsBlankText front ∧ IsBlankText back ∧ padded = front ++ s ++ back

theorem dropAroundWhile_append {p : Char → Bool} {front back : List Char}
    (hfront : ∀ c ∈ front, p c = true) (hback : ∀ c ∈ back, p c = true) (cs : List Char) :
    dropAroundWhile p (front ++ cs ++ back) = dropAroundWhile p cs := by
  have hend (l : List Char) : dropEndWhile p (l ++ back) = dropEndWhile p l := by
    rw [dropEndWhile_append, if_pos (dropEndWhile_eq_nil_iff.2 hback)]
  have hblank : dropEndWhile p (back.dropWhile p) = [] :=
    dropEndWhile_eq_nil_iff.2 fun c hc => hback c ((List.dropWhile_sublist p).mem hc)
  rw [dropAroundWhile, dropAroundWhile, List.append_assoc, List.dropWhile_append_of_pos hfront,
    List.dropWhile_append]
  split
  · rename_i hnone
    rw [hblank, List.isEmpty_iff.1 hnone, dropEndWhile_nil]
  · exact hend _

theorem IsPadded.trim_eq {s padded : String} (h : IsPadded s padded) : trim padded = trim s := by
  obtain ⟨front, back, hfront, hback, rfl⟩ := h
  rw [← String.toList_inj, toList_trim, toList_trim, String.toList_append, String.toList_append]
  exact dropAroundWhile_append hfront hback _

theorem dropAroundWhile_eq_self_iff {p : Char → Bool} {cs : List Char} :
    dropAroundWhile p cs = cs ↔
      (∀ c ∈ cs.head?, p c = false) ∧ ∀ c ∈ cs.getLast?, p c = false := by
  have hfirst : cs.dropWhile p = cs ↔ ∀ c ∈ cs.head?, p c = false := by
    cases cs with
    | nil => simp
    | cons c cs => simp [List.dropWhile_eq_self_iff]
  have hlast : dropEndWhile p cs = cs ↔ ∀ c ∈ cs.getLast?, p c = false := by
    rw [dropEndWhile, List.reverse_eq_iff, List.getLast?_eq_head?_reverse]
    cases cs.reverse with
    | nil => simp
    | cons c cs => simp [List.dropWhile_eq_self_iff]
  rw [← hfirst, ← hlast, dropAroundWhile]
  constructor
  · intro h
    have hsub : cs.Sublist (cs.dropWhile p) := by
      conv_lhs => rw [← h]
      exact (List.rdropWhile_prefix p _).sublist
    have hdrop : cs.dropWhile p = cs := (List.dropWhile_sublist p).antisymm hsub
    rw [hdrop] at h
    exact ⟨hdrop, h⟩
  · rintro ⟨hdrop, h⟩
    rw [hdrop, h]

/-- A text is trimmed when neither its first nor its last character is blank. -/
theorem trim_eq_self_iff {s : String} :
    trim s = s ↔ (∀ c ∈ s.toList.head?, isBlank c = false) ∧
      ∀ c ∈ s.toList.getLast?, isBlank c = false := by
  rw [← String.toList_inj, toList_trim, dropAroundWhile_eq_self_iff]

theorem trim_append {s t : String} (hs : trim s = s) (ht : trim t = t) :
    trim (s ++ t) = s ++ t := by
  rw [trim_eq_self_iff] at hs ht ⊢
  rw [String.toList_append]
  refine ⟨fun c hc => ?_, fun c hc => ?_⟩
  · rw [List.head?_append, Option.mem_def, Option.or_eq_some_iff] at hc
    rcases hc with hc | ⟨-, hc⟩
    · exact hs.1 c hc
    · exact ht.1 c hc
  · rw [List.getLast?_append, Option.mem_def, Option.or_eq_some_iff] at hc
    rcases hc with hc | ⟨-, hc⟩
    · exact ht.2 c hc
    · exact hs.2 c hc

end StackAudit.Text
