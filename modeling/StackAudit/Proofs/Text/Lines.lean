import Mathlib.Data.List.Basic
import StackAudit.Proofs.Text.Digits
import StackAudit.Text.Lines

/-!
# Lines and words that are read back

A text that was put together from parts is cut into these parts again, where no part holds what
separates them.
-/
namespace StackAudit.Text

/-- A text without the separator is its only piece. -/
theorem pieces_of_notMem {sep : Char} {s : String} (h : sep ∉ s.toList) : pieces sep s = [s] := by
  rw [pieces, List.splitOn_eq_singleton h, List.map_singleton, String.ofList_toList]

theorem pieces_ne_nil (sep : Char) (s : String) : pieces sep s ≠ [] := by
  simp [pieces, List.splitOn_ne_nil]

/-- Parts with a separator between them are the pieces. -/
theorem pieces_intercalate {sep : Char} {parts : List String} (hne : parts ≠ [])
    (h : ∀ s ∈ parts, sep ∉ s.toList) :
    pieces sep ((String.singleton sep).intercalate parts) = parts := by
  have hsep : (String.singleton sep).toList = [sep] := by simp
  rw [pieces, String.toList_intercalate, hsep, List.splitOn_intercalate sep (by simpa using h)
    (by simpa using hne), List.map_map]
  simp

/-- A character that is not in the separator is in parts that are put together if it is in one. -/
theorem notMem_intercalate_iff {c : Char} {sep : String} {parts : List String}
    (hsep : c ∉ sep.toList) : c ∉ (sep.intercalate parts).toList ↔ ∀ s ∈ parts, c ∉ s.toList := by
  induction parts with
  | nil => simp
  | cons s parts ih =>
    rw [List.forall_mem_cons, ← ih]
    by_cases hnil : parts = []
    · simp [hnil]
    · rw [String.intercalate_cons_of_ne_nil hnil, String.toList_append, String.toList_append,
        List.mem_append, List.mem_append, or_assoc, not_or, not_or, and_iff_right hsep]

/-- A text is its pieces with the separator between them. -/
theorem intercalate_pieces (sep : Char) (s : String) :
    (String.singleton sep).intercalate (pieces sep s) = s := by
  have hsep : (String.singleton sep).toList = [sep] := by simp
  have hpieces : (pieces sep s).map String.toList = s.toList.splitOn sep := by
    simp [pieces, Function.comp_def]
  rw [← String.toList_inj, String.toList_intercalate, hsep, hpieces, List.intercalate_splitOn]

/-- The pieces of a text have no characters of their own. -/
theorem notMem_of_mem_pieces {sep c : Char} {s : String} (hne : c ≠ sep) (h : c ∉ s.toList) :
    ∀ p ∈ pieces sep s, c ∉ p.toList := by
  have hsep : c ∉ (String.singleton sep).toList := by simpa using hne
  rw [← notMem_intercalate_iff hsep, intercalate_pieces]
  exact h

theorem notMem_of_mem_splitOn {c : Char} {cs part : List Char} (h : part ∈ cs.splitOn c) :
    c ∉ part := by
  rw [List.splitOn] at h
  induction cs generalizing part with
  | nil =>
    rw [List.splitOnP_nil, List.mem_singleton] at h
    simp [h]
  | cons d cs ih =>
    rw [List.splitOnP_cons_eq_if_modifyHead] at h
    split at h
    · rcases List.mem_cons.1 h with hempty | hrest
      · simp [hempty]
      · exact ih hrest
    · rename_i hd
      have hne : c ≠ d := fun heq => hd (beq_iff_eq.2 heq.symm)
      obtain ⟨first, rest, hcs⟩ := List.exists_cons_of_ne_nil (List.splitOnP_ne_nil (· == c) cs)
      rw [hcs] at h ih
      rcases List.mem_cons.1 h with hfirst | hrest
      · have hnot : c ∉ first := ih List.mem_cons_self
        simp [hfirst, hne, hnot]
      · exact ih (List.mem_cons_of_mem first hrest)

/-- No piece has the separator in it. -/
theorem separator_notMem {sep : Char} {s p : String} (h : p ∈ pieces sep s) : sep ∉ p.toList := by
  obtain ⟨part, hpart, rfl⟩ := List.mem_map.1 h
  rw [String.toList_ofList]
  exact notMem_of_mem_splitOn hpart

/-- A separator between two texts keeps their pieces apart. -/
theorem pieces_append (sep : Char) (s t : String) :
    pieces sep (s ++ String.singleton sep ++ t) = pieces sep s ++ pieces sep t := by
  have hchars : (s ++ String.singleton sep ++ t).toList = s.toList ++ sep :: t.toList := by simp
  rw [pieces, hchars, List.splitOn, List.splitOnP_append_cons _ _ (by simp), List.map_append]
  rfl

/-! ### Lines -/

/-- The lines of a text that are ended by a line feed. -/
def endedLines (s : String) : List String := (pieces '\n' s).dropLast

@[simp] theorem endLines_nil : endLines [] = "" := rfl

@[simp] theorem endLines_cons (line : String) (lines : List String) :
    endLines (line :: lines) = line ++ "\n" ++ endLines lines := by
  rw [endLines, List.map_cons, String.join_cons]
  rfl

/-- A line with a line feed of its own is cut into several. Behind the last one nothing is left. -/
theorem pieces_endLines (lines : List String) :
    pieces '\n' (endLines lines) = lines.flatMap (pieces '\n') ++ [""] := by
  induction lines with
  | nil => rfl
  | cons line lines ih =>
    have hpieces : pieces '\n' (line ++ "\n" ++ endLines lines) =
        pieces '\n' line ++ pieces '\n' (endLines lines) :=
      pieces_append '\n' line (endLines lines)
    rw [endLines_cons, hpieces, ih, List.flatMap_cons, List.append_assoc]

theorem flatMap_pieces_of_notMem {sep : Char} {parts : List String}
    (h : ∀ s ∈ parts, sep ∉ s.toList) : parts.flatMap (pieces sep) = parts := by
  induction parts with
  | nil => rfl
  | cons s parts ih =>
    obtain ⟨hs, hparts⟩ := List.forall_mem_cons.1 h
    rw [List.flatMap_cons, pieces_of_notMem hs, ih hparts, List.singleton_append]

/-- A line with a line feed of its own is read as several. -/
theorem endedLines_endLines (lines : List String) :
    endedLines (endLines lines) = lines.flatMap (pieces '\n') := by
  rw [endedLines, pieces_endLines, List.dropLast_concat]

/-- Lines without a line feed of their own are read back. -/
theorem endedLines_endLines_of_notMem {lines : List String}
    (h : ∀ line ∈ lines, '\n' ∉ line.toList) : endedLines (endLines lines) = lines := by
  rw [endedLines_endLines, flatMap_pieces_of_notMem h]

/-- The last line is read back whatever stands before it. -/
theorem getLast?_endedLines (lines : List String) {last : String} (h : '\n' ∉ last.toList) :
    (endedLines (endLines (lines ++ [last]))).getLast? = some last := by
  rw [endedLines_endLines, List.flatMap_append, List.flatMap_singleton, pieces_of_notMem h]
  exact List.getLast?_concat

/-! ### Numbers -/

theorem toList_toString (n : Nat) : (toString n).toList = Nat.toDigits 10 n := by
  change n.repr.toList = _
  rw [Nat.repr_eq_ofList_toDigits, String.toList_ofList]

/-- A written number has digits only. -/
theorem notMem_toString {c : Char} (hc : c.isDigit = false) (n : Nat) :
    c ∉ (toString n).toList := by
  rw [toList_toString]
  intro hmem
  rw [isDigit_of_mem_toDigits hmem] at hc
  cases hc

/-! ### Beginnings and ends -/

theorem behind?_eq_some_iff {beginning s rest : String} :
    behind? beginning s = some rest ↔ s = beginning ++ rest := by
  rw [behind?, Option.map_eq_some_iff]
  simp only [List.isPrefixOf?_eq_some_iff_append_eq]
  constructor
  · rintro ⟨r, hr, rfl⟩
    rw [← String.toList_inj, ← hr]
    simp
  · rintro rfl
    exact ⟨rest.toList, by simp, String.ofList_toList⟩

theorem before?_eq_some_iff {ending s front : String} :
    before? ending s = some front ↔ s = front ++ ending := by
  rw [before?, Option.map_eq_some_iff]
  simp only [List.isPrefixOf?_eq_some_iff_append_eq]
  constructor
  · rintro ⟨r, hr, rfl⟩
    rw [← String.toList_inj, ← List.reverse_inj, ← hr]
    simp
  · rintro rfl
    exact ⟨front.toList.reverse, by simp, by simp⟩

theorem startsWith_iff {beginning s : String} :
    startsWith beginning s = true ↔ ∃ rest, s = beginning ++ rest := by
  simp only [startsWith, Option.isSome_iff_exists, behind?_eq_some_iff]

theorem behind?_append (beginning rest : String) :
    behind? beginning (beginning ++ rest) = some rest :=
  behind?_eq_some_iff.2 rfl

/-- The first separator is the one behind a text without it. -/
theorem splitFirst_append {sep : Char} {s : String} (h : sep ∉ s.toList) (rest : String) :
    splitFirst sep (s ++ String.singleton sep ++ rest) = some (s, rest) := by
  have hchars : (s ++ String.singleton sep ++ rest).toList = s.toList ++ sep :: rest.toList := by
    simp
  rw [splitFirst, hchars, cutFirst_append_cons h]
  simp

theorem splitFirst_eq_some_iff {sep : Char} {s front rest : String} :
    splitFirst sep s = some (front, rest) ↔
      sep ∉ front.toList ∧ s = front ++ String.singleton sep ++ rest := by
  constructor
  · intro h
    obtain ⟨⟨l, r⟩, hcut, hparts⟩ := Option.map_eq_some_iff.1 h
    obtain ⟨hchars, hsep⟩ := eq_append_of_cutFirst hcut
    obtain ⟨rfl, rfl⟩ := Prod.ext_iff.1 hparts
    refine ⟨by simpa using hsep, ?_⟩
    rw [← String.toList_inj, hchars]
    simp
  · rintro ⟨hsep, rfl⟩
    exact splitFirst_append hsep rest

end StackAudit.Text
