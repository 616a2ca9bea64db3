import StackAudit.StackPath.Relative

/-!
# Canonical paths

A path that is made from a text is canonical: it has no backslash, does not start with `./` and is
not empty. A path is canonical exactly when its own text makes it again. Joining two canonical paths
makes a canonical one, since the text in between is made canonical once more.
-/
namespace StackAudit.StackPath

theorem not_prefix_dropDots (cs : List Char) : ¬['.', '/'] <+: dropDots cs := by
  induction cs using dropDots.induct with
  | case1 r ih => exact ih
  | case2 cs hdots =>
    rw [dropDots.eq_2 cs hdots]
    rintro ⟨r, rfl⟩
    exact hdots r rfl

theorem dropDots_suffix (cs : List Char) : dropDots cs <:+ cs := by
  induction cs using dropDots.induct with
  | case1 r ih => exact ih.trans (List.suffix_append ['.', '/'] r)
  | case2 cs hdots =>
    refine ⟨[], ?_⟩
    rw [dropDots.eq_2 cs hdots, List.nil_append]

theorem dropDots_eq_self {cs : List Char} (h : ¬['.', '/'] <+: cs) : dropDots cs = cs :=
  dropDots.eq_2 cs fun r hr => h ⟨r, hr.symm⟩

/-- What is made of a text has no `./` in front and no backslash, and it is not empty. -/
theorem isCanonical_ofText (s : String) : (ofText s).IsCanonical := by
  have hslashes : '\\' ∉ s.toList.map fun c => if c = '\\' then '/' else c := by
    rw [List.mem_map]
    rintro ⟨c, -, hc⟩
    split at hc <;> simp_all
  have hdots := not_prefix_dropDots (s.toList.map fun c => if c = '\\' then '/' else c)
  have hback := fun h => hslashes ((dropDots_suffix _).mem h)
  simp only [IsCanonical, ofText, String.toList_ofList, canonicalChars]
  split
  · decide
  · rename_i hne
    exact ⟨hne, hback, hdots⟩

/-- A path is made from its own text exactly when it is canonical. -/
theorem ofText_text_eq_iff {p : StackPath} : ofText p.text = p ↔ p.IsCanonical := by
  constructor
  · intro h
    exact h ▸ isCanonical_ofText p.text
  · rintro ⟨hne, hback, hdots⟩
    have hslashes : (p.text.toList.map fun c => if c = '\\' then '/' else c) = p.text.toList := by
      have hkept : ∀ c ∈ p.text.toList, (if c = '\\' then '/' else c) = c := by
        intro c hc
        rw [if_neg]
        rintro rfl
        exact hback hc
      rw [List.map_congr_left hkept, List.map_id']
    have hchars : canonicalChars p.text.toList = p.text.toList := by
      rw [canonicalChars, hslashes, dropDots_eq_self hdots]
      split
      · contradiction
      · rfl
    rw [ofText, hchars, String.ofList_toList]

/-- Relative to a directory, every path is canonical. -/
theorem isCanonical_relativeTo (dir path : String) : (relativeTo dir path).IsCanonical :=
  isCanonical_ofText _

theorem IsCanonical.join {p q : StackPath} (hp : p.IsCanonical) (hq : q.IsCanonical) :
    (p.join q).IsCanonical := by
  unfold StackPath.join
  split
  · exact hq
  · split
    · exact hp
    · exact isCanonical_ofText _

end StackAudit.StackPath
