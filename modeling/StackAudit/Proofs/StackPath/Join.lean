import StackAudit.Proofs.StackPath.Canonical
import StackAudit.Proofs.Text.Blank

/-!
# Joined paths

Two canonical paths are joined as they are written: the first without the slashes at its end, then a
slash and the second. What is written so is canonical as it stands. A path in the middle loses the
slashes at its end when something is put below it, and this is the same before and after it is put
below another path, unless it has nothing but slashes. A path that does not start at the top never
is of that kind, so on the relative paths joining is the operation of a monoid.
-/
namespace StackAudit.StackPath

variable {p q a b c : StackPath}

theorem eq_of_toList_text (h : p.text.toList = q.text.toList) : p = q := by
  cases p
  cases q
  rw [mk.injEq]
  exact String.toList_inj.1 h

theorem text_eq_dot_iff : p.text = "." ↔ p = here := by
  cases p
  rw [here, mk.injEq]

/-- The text of a path before the slashes at its end. -/
def stem (p : StackPath) : List Char := Text.dropEndWhile (· == '/') p.text.toList

theorem stem_prefix (p : StackPath) : p.stem <+: p.text.toList := List.rdropWhile_prefix _ _

theorem exists_slashes (p : StackPath) :
    ∃ slashes, (∀ c ∈ slashes, c = '/') ∧ p.stem ++ slashes = p.text.toList :=
  ⟨p.text.toList.rtakeWhile (· == '/'),
    fun _ hc => beq_iff_eq.1 (List.mem_rtakeWhile_imp (p := (· == '/')) hc),
    List.rdropWhile_append_rtakeWhile⟩

theorem stem_cases (p : StackPath) :
    p.text.toList = p.stem ∨ p.stem ++ ['/'] <+: p.text.toList := by
  obtain ⟨slashes, hslashes, htext⟩ := exists_slashes p
  cases slashes with
  | nil => exact .inl (by rw [← htext, List.append_nil])
  | cons c slashes =>
    obtain rfl := hslashes c (List.mem_cons_self ..)
    exact .inr ⟨slashes, by rw [← htext, List.append_assoc, List.singleton_append]⟩

/-- Behind a slash, nothing makes a text start with `./`. -/
theorem dots_prefix_append_slash_iff {cs r : List Char} :
    ['.', '/'] <+: cs ++ '/' :: r ↔ cs = ['.'] ∨ ['.', '/'] <+: cs := by
  rcases cs with _ | ⟨c, _ | ⟨d, cs⟩⟩
  · simp
  · simpa using eq_comm
  · simp

/-- A dot with slashes behind it is the place itself or starts with `./`. -/
theorem IsCanonical.stem_ne_dot (hp : p.IsCanonical) (hne : p ≠ here) : p.stem ≠ ['.'] := by
  intro hdot
  have hcases := stem_cases p
  rw [hdot] at hcases
  rcases hcases with htext | hdots
  · exact hne (eq_of_toList_text htext)
  · exact hp.2.2 hdots

/-- Where neither path is the place itself, nothing of the joined text is made canonical. -/
theorem IsCanonical.toList_text_join (hp : p.IsCanonical) (hq : q.IsCanonical) (hp' : p ≠ here)
    (hq' : q ≠ here) : (p.join q).text.toList = p.stem ++ '/' :: q.text.toList := by
  have hjoin : p.join q = ofText (String.ofList (p.stem ++ '/' :: q.text.toList)) := by
    rw [StackPath.join, if_neg (text_eq_dot_iff.not.2 hp'), if_neg (text_eq_dot_iff.not.2 hq'),
      stem]
  have hcanonical : IsCanonical ⟨String.ofList (p.stem ++ '/' :: q.text.toList)⟩ := by
    simp only [IsCanonical, String.toList_ofList]
    refine ⟨by simp, ?_, ?_⟩
    · rw [List.mem_append, List.mem_cons]
      rintro (hmem | hslash | hmem)
      · exact hp.2.1 (p.stem_prefix.mem hmem)
      · exact absurd hslash (by decide)
      · exact hq.2.1 hmem
    · rw [dots_prefix_append_slash_iff]
      rintro (hdot | hdots)
      · exact hp.stem_ne_dot hp' hdot
      · exact hp.2.2 (hdots.trans p.stem_prefix)
  rw [hjoin, ofText_text_eq_iff.2 hcanonical, String.toList_ofList]

/-- Only the place itself, twice, is joined to the place itself. -/
theorem IsCanonical.join_eq_here_iff (hp : p.IsCanonical) (hq : q.IsCanonical) :
    p.join q = here ↔ p = here ∧ q = here := by
  by_cases hp' : p = here
  · simp [hp']
  by_cases hq' : q = here
  · simp [hq']
  refine iff_of_false (fun h => ?_) fun h => hp' h.1
  have hslash : '/' ∈ (p.join q).text.toList := by
    rw [hp.toList_text_join hq hp' hq']
    exact List.mem_append_right _ (List.mem_cons_self ..)
  rw [h] at hslash
  exact absurd hslash (by decide)

/-- The slashes at the end of a joined path are those of the second path. If it has nothing else,
the slash in front of it and those of the first path are lost too. -/
theorem IsCanonical.stem_join (hp : p.IsCanonical) (hq : q.IsCanonical) (hp' : p ≠ here)
    (hq' : q ≠ here) :
    (p.join q).stem = if q.stem = [] then p.stem else p.stem ++ '/' :: q.stem := by
  have hslash : (p.join q).text.toList = p.stem ++ ['/'] ++ q.text.toList := by
    rw [hp.toList_text_join hq hp' hq', List.append_assoc, List.singleton_append]
  rw [stem, hslash, Text.dropEndWhile_append, ← stem, Text.dropEndWhile_concat,
    if_pos (beq_self_eq_true '/'), List.append_assoc, List.singleton_append]
  congr 1
  exact List.rdropWhile_idempotent _ _

/-- Only in one case does it matter which two of three canonical paths are joined first: the path in
the middle has nothing but slashes, and neither of the others is the place itself. -/
theorem IsCanonical.join_assoc_iff (ha : a.IsCanonical) (hb : b.IsCanonical)
    (hc : c.IsCanonical) :
    (a.join b).join c = a.join (b.join c) ↔ a = here ∨ c = here ∨ b.stem ≠ [] := by
  by_cases ha' : a = here
  · simp [ha']
  by_cases hc' : c = here
  · simp [hc']
  by_cases hb' : b = here
  · have hstem : here.stem ≠ [] := by decide
    simp [hb', hstem]
  have hab : a.join b ≠ here := fun h => ha' ((ha.join_eq_here_iff hb).1 h).1
  have hbc : b.join c ≠ here := fun h => hb' ((hb.join_eq_here_iff hc).1 h).1
  have hleft := (ha.join hb).toList_text_join hc hab hc'
  have hright := ha.toList_text_join (hb.join hc) ha' hbc
  rw [ha.stem_join hb ha' hb'] at hleft
  rw [hb.toList_text_join hc hb' hc'] at hright
  by_cases hslashes : b.stem = []
  · rw [if_pos hslashes] at hleft
    rw [hslashes, List.nil_append] at hright
    refine iff_of_false (fun h => ?_) (by simp [ha', hc', hslashes])
    -- the slash that is put in front of `b` is lost with those of `b`, but not the one behind it
    rw [h, hright] at hleft
    simpa using congrArg List.length hleft
  · rw [if_neg hslashes, List.append_assoc, List.cons_append, ← hright] at hleft
    exact iff_of_true (eq_of_toList_text hleft) (.inr (.inr hslashes))

example : (join ⟨"a"⟩ ⟨"/"⟩).join ⟨"c"⟩ = ⟨"a/c"⟩ ∧ join ⟨"a"⟩ (join ⟨"/"⟩ ⟨"c"⟩) = ⟨"a//c"⟩ := by
  decide

/-! ### Relative paths -/

/-- A path that is canonical and does not start at the top. -/
def IsRelative (p : StackPath) : Prop := p.IsCanonical ∧ ¬['/'] <+: p.text.toList

instance (p : StackPath) : Decidable p.IsRelative := inferInstanceAs (Decidable (_ ∧ _))

theorem isRelative_here : here.IsRelative := by decide

theorem IsRelative.stem_ne_nil (hp : p.IsRelative) : p.stem ≠ [] := by
  intro hnil
  have hcases := stem_cases p
  rw [hnil] at hcases
  rcases hcases with htext | hroot
  · exact hp.1.1 htext
  · exact hp.2 hroot

theorem IsRelative.join (hp : p.IsRelative) (hq : q.IsRelative) : (p.join q).IsRelative := by
  by_cases hp' : p = here
  · rwa [hp', join_here_left]
  by_cases hq' : q = here
  · rwa [hq', join_here_right]
  refine ⟨hp.1.join hq.1, fun hroot => ?_⟩
  rw [hp.1.toList_text_join hq.1 hp' hq'] at hroot
  have hlength : ['/'].length ≤ p.stem.length := List.length_pos_iff.2 hp.stem_ne_nil
  exact hp.2 ((List.prefix_of_prefix_length_le hroot (List.prefix_append _ _) hlength).trans
    p.stem_prefix)

theorem IsRelative.join_assoc (ha : a.IsRelative) (hb : b.IsRelative) (hc : c.IsRelative) :
    (a.join b).join c = a.join (b.join c) :=
  (ha.1.join_assoc_iff hb.1 hc.1).2 (.inr (.inr hb.stem_ne_nil))

/-- Made canonical once, a text stays as it is. On relative paths joining is the operation of a
monoid with the place itself as its unit: where neither path is that, slashes at the end of the
first are replaced by one, and all other slashes stay. -/
theorem join_forms_monoid (ha : a.IsRelative) (hb : b.IsRelative) (hc : c.IsRelative) (s : String) :
    ofText (ofText s).text = ofText s ∧ here.IsRelative ∧ (a.join b).IsRelative ∧
      here.join a = a ∧ a.join here = a ∧ (a.join b).join c = a.join (b.join c) ∧
      (a ≠ here → b ≠ here → (a.join b).text.toList = a.stem ++ '/' :: b.text.toList) := by
  refine ⟨?_, isRelative_here, ha.join hb, join_here_left a, join_here_right a, ?_, ?_⟩
  · exact ofText_text_eq_iff.2 (isCanonical_ofText s)
  · exact ha.join_assoc hb hc
  · exact ha.1.toList_text_join hb.1

/-- Slashes in a row, slashes at the end, and a path that leads out of its place. -/
theorem join_forms_monoid_slashed :
    (IsRelative ⟨"k8s//"⟩ ∧ IsRelative ⟨"..//base/"⟩ ∧ IsRelative ⟨"app.yaml/"⟩) ∧
      ofText (ofText ".\\./x//").text = ofText ".\\./x//" ∧
      (join ⟨"k8s//"⟩ ⟨"..//base/"⟩).IsRelative ∧
      (join ⟨"k8s//"⟩ ⟨"..//base/"⟩).join ⟨"app.yaml/"⟩ =
        join ⟨"k8s//"⟩ (join ⟨"..//base/"⟩ ⟨"app.yaml/"⟩) ∧
      (join ⟨"k8s//"⟩ ⟨"..//base/"⟩).text.toList = "k8s/..//base/".toList := by
  have ha : IsRelative ⟨"k8s//"⟩ := by decide
  have hb : IsRelative ⟨"..//base/"⟩ := by decide
  have hc : IsRelative ⟨"app.yaml/"⟩ := by decide
  obtain ⟨hidem, -, hjoin, -, -, hassoc, htext⟩ := join_forms_monoid ha hb hc ".\\./x//"
  exact ⟨⟨ha, hb, hc⟩, hidem, hjoin, hassoc, (htext (by decide) (by decide)).trans (by decide)⟩

end StackAudit.StackPath
