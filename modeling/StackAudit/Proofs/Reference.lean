import StackAudit.Reference
import StackAudit.Proofs.Text.Blank
import StackAudit.Proofs.Text.Lines

/-!
# Ways to write a reference

A name may be written as it stands, inside the marks of an interpolation, there also with an
attribute behind it, or at the end of a uniform resource name. Each way is undone: what is left of
the reference is the name. At most one attribute is taken off, so a name may look like one itself.
-/
namespace StackAudit.Reference

open Text (IsBlankText IsPadded isBlank trim trim_append trim_eq_self_iff before?
  before?_eq_some_iff behind?_eq_some_iff startsWith startsWith_iff)

/-- The text between the marks of an interpolation. -/
def enclose (inner : String) : String := "$\x7b" ++ inner ++ "\x7d"

/-- A name that a reference gives as it stands: with no blank at its ends, and not itself a uniform
resource name. -/
structure IsPlain (n : String) : Prop where
  trimmed : trim n = n
  not_urn : ∀ rest, n ≠ "urn:" ++ rest

theorem IsPlain.not_startsWith {n : String} (h : IsPlain n) : ¬startsWith "urn:" n = true := by
  rw [startsWith_iff]
  rintro ⟨rest, hrest⟩
  exact h.not_urn rest hrest

/-- What can stand behind the last double colon of a uniform resource name. -/
structure IsLastPart (n : String) : Prop where
  trimmed : trim n = n
  first : n.toList.head? ≠ some ':'
  single : ¬"::".toList <:+: n.toList

/-- The ways to write a reference to a name. Blanks may stand around each of them, and inside the
marks of an interpolation. -/
inductive Writes (n : String) : String → Prop where
  /-- An interpolation of an attribute. -/
  | attributed {a inner text : String} (hn : IsPlain n)
    (ha : a ∈ [".id", ".bucket", ".arn", ".name"]) (hinner : IsPadded (n ++ a) inner)
    (htext : IsPadded (enclose inner) text) : Writes n text
  /-- An interpolation of the name alone, which may not look like that of an attribute. -/
  | interpolation {inner text : String} (hn : IsPlain n)
    (hplain : ∀ a ∈ [".id", ".bucket", ".arn", ".name"], ∀ front, n ≠ front ++ a)
    (hinner : IsPadded n inner) (htext : IsPadded (enclose inner) text) : Writes n text
  /-- The name alone, which may not look like an interpolation. -/
  | plain {text : String} (hn : IsPlain n) (hopen : ∀ inner, n ≠ enclose inner)
    (htext : IsPadded n text) : Writes n text
  /-- A uniform resource name with the name behind its last double colon. -/
  | urn {u rest front text : String} (hn : IsLastPart n) (hu : u = "urn:" ++ rest)
    (hlast : u = front ++ "::" ++ n) (htext : IsPadded u text) : Writes n text

theorem interpolated?_eq_some_iff {s inner : String} :
    interpolated? s = some inner ↔ s = enclose inner := by
  simp only [interpolated?, Option.bind_eq_some_iff, behind?_eq_some_iff, before?_eq_some_iff,
    enclose, String.append_assoc]
  constructor
  · rintro ⟨_, rfl, rfl⟩
    rfl
  · rintro rfl
    exact ⟨_, rfl, rfl⟩

theorem interpolated?_eq_none {s : String} (h : ∀ inner, s ≠ enclose inner) :
    interpolated? s = none :=
  Option.eq_none_iff_forall_ne_some.2 fun inner hinner =>
    h inner (interpolated?_eq_some_iff.1 hinner)

theorem trim_enclose (inner : String) : trim (enclose inner) = enclose inner := by
  have hchars : (enclose inner).toList = '$' :: '\x7b' :: (inner.toList ++ ['\x7d']) := by
    simp [enclose]
  rw [trim_eq_self_iff, hchars]
  constructor
  · rintro _ ⟨⟩
    decide
  · rw [← List.cons_append, ← List.cons_append, List.getLast?_concat]
    rintro _ ⟨⟩
    decide

/-- No two attributes end in the same way. -/
theorem eq_of_append_attribute {s t a b : String} (ha : a ∈ attributes) (hb : b ∈ attributes)
    (h : s ++ a = t ++ b) : a = b := by
  have hends : ∀ a ∈ attributes, ∀ b ∈ attributes, a.toList.getLast? = b.toList.getLast? →
      a = b := by decide
  have hlast (s : String) {a : String} (ha : a ∈ attributes) :
      (s ++ a).toList.getLast? = a.toList.getLast? := by
    have hsome : ∀ a ∈ attributes, a.toList.getLast?.isSome = true := by decide
    rw [String.toList_append, List.getLast?_append, Option.or_of_isSome (hsome a ha)]
  refine hends a ha b hb ?_
  rw [← hlast s ha, h, hlast t hb]

theorem dropAttribute_append {n a : String} (ha : a ∈ attributes) : dropAttribute (n ++ a) = n := by
  rw [dropAttribute]
  cases hfound : attributes.findSome? fun b => before? b (n ++ a) with
  | none =>
    have hno := List.findSome?_eq_none_iff.1 hfound a ha
    rw [before?_eq_some_iff.2 rfl] at hno
    cases hno
  | some front =>
    obtain ⟨b, hb, hfront⟩ := List.exists_of_findSome?_eq_some hfound
    have happ := before?_eq_some_iff.1 hfront
    obtain rfl := eq_of_append_attribute ha hb happ
    exact (String.append_left_inj a).1 happ.symm

theorem dropAttribute_eq_self {n : String} (h : ∀ a ∈ attributes, ∀ front, n ≠ front ++ a) :
    dropAttribute n = n := by
  have hnone : (attributes.findSome? fun a => before? a n) = none :=
    List.findSome?_eq_none_iff.2 fun a ha => Option.eq_none_iff_forall_ne_some.2 fun front hfront =>
      h a ha front (before?_eq_some_iff.1 hfront)
  rw [dropAttribute, hnone, Option.getD_none]

/-- Read from the end, all characters in front of the first double colon are kept. -/
theorem behindLastColons_append {cs : List Char} (h : ¬[':', ':'] <:+: cs ++ [':'])
    (found rest : List Char) :
    behindLastColons found (cs ++ ':' :: ':' :: rest) = cs.reverse ++ found := by
  induction cs generalizing found with
  | nil => rfl
  | cons c cs ih =>
    have hcs : ¬[':', ':'] <:+: cs ++ [':'] := fun hin => h (List.infix_cons hin)
    have hstep : behindLastColons found (c :: (cs ++ ':' :: ':' :: rest)) =
        behindLastColons (c :: found) (cs ++ ':' :: ':' :: rest) := by
      rw [behindLastColons]
      -- Two colons from here on would begin in front of the first ones.
      rintro r rfl hr
      refine h (List.IsPrefix.isInfix ?_)
      cases cs with
      | nil => exact List.prefix_rfl
      | cons d ds =>
        obtain ⟨rfl, -⟩ := List.cons.inj hr
        exact ⟨ds ++ [':'], rfl⟩
    rw [List.cons_append, hstep, ih hcs, List.reverse_cons, List.append_assoc,
      List.singleton_append]

theorem urnName_append {front n : String} (h : IsLastPart n) :
    urnName (front ++ "::" ++ n) = n := by
  have hcolons : ¬[':', ':'] <:+: n.toList.reverse ++ [':'] := by
    rw [← List.reverse_infix, List.reverse_append, List.reverse_reverse]
    intro hin
    rcases List.infix_cons_iff.1 hin with hpre | hin
    · refine h.first ?_
      obtain ⟨rest, hrest⟩ := hpre
      have hn : ':' :: rest = n.toList := (List.cons.inj hrest).2
      rw [← hn, List.head?_cons]
    · exact h.single hin
  have hchars : (front ++ "::" ++ n).toList.reverse =
      n.toList.reverse ++ ':' :: ':' :: front.toList.reverse := by
    simp
  rw [urnName, hchars, behindLastColons_append hcolons, List.reverse_reverse, List.append_nil,
    String.ofList_toList]

theorem trim_urn {u rest front n : String} (hn : IsLastPart n) (hu : u = "urn:" ++ rest)
    (hlast : u = front ++ "::" ++ n) : trim u = u := by
  rw [trim_eq_self_iff]
  constructor
  · rw [hu]
    intro c hc
    obtain rfl : 'u' = c := by simpa using hc
    decide
  · rw [hlast, String.append_assoc, String.toList_append, List.getLast?_append]
    have hcolons : trim ("::" ++ n) = "::" ++ n := trim_append (by decide) hn.trimmed
    have hsome : ("::" ++ n).toList.getLast?.isSome = true := by simp
    rw [Option.or_of_isSome hsome]
    exact (trim_eq_self_iff.1 hcolons).2

theorem key_of_enclose {inner text n : String} (hn : IsPlain n)
    (hinner : dropAttribute (trim inner) = n) (htext : IsPadded (enclose inner) text) :
    key text = n := by
  have hwhole : interpolated? (trim text) = some inner := by
    rw [htext.trim_eq, trim_enclose, interpolated?_eq_some_iff]
  simp only [key, hwhole, hinner, if_neg hn.not_startsWith]

theorem key_of_open {whole text : String} (hopen : ∀ inner, whole ≠ enclose inner)
    (hwhole : trim whole = whole) (htext : IsPadded whole text) :
    key text = if startsWith "urn:" whole then urnName whole else whole := by
  simp only [key, htext.trim_eq, hwhole, interpolated?_eq_none hopen]

/-- A reference to a name, written in whatever way, is reduced to it. -/
theorem key_of_writes {n text : String} (h : Writes n text) : key text = n := by
  cases h with
  | @attributed a inner text hn ha hinner htext =>
    refine key_of_enclose hn ?_ htext
    have htrim : ∀ a ∈ attributes, trim a = a := by decide
    rw [hinner.trim_eq, trim_append hn.trimmed (htrim a ha), dropAttribute_append ha]
  | interpolation hn hplain hinner htext =>
    refine key_of_enclose hn ?_ htext
    rw [hinner.trim_eq, hn.trimmed, dropAttribute_eq_self hplain]
  | plain hn hopen htext =>
    rw [key_of_open hopen hn.trimmed htext, if_neg hn.not_startsWith]
  | @urn u rest front text hn hu hlast htext =>
    have hopen : ∀ inner, u ≠ enclose inner := by
      rintro inner rfl
      have hhead := congrArg (·.toList.head?) hu
      simp [enclose] at hhead
    rw [key_of_open hopen (trim_urn hn hu hlast) htext, if_pos (startsWith_iff.2 ⟨rest, hu⟩), hlast,
      urnName_append hn]

/-- A name that ends like an attribute itself, with blanks inside and outside the marks. -/
theorem key_of_writes_dotted :
    let text := " $\x7b\tlogs.eu.id.arn \x7d\n"
    Writes "logs.eu.id" text ∧ key text = "logs.eu.id" := by
  intro text
  have hname : IsPlain "logs.eu.id" :=
    ⟨by decide, fun rest h => absurd (startsWith_iff.2 ⟨rest, h⟩) (by decide)⟩
  have hblank : IsBlankText " " ∧ IsBlankText "\t" ∧ IsBlankText "\n" := by
    simp [IsBlankText, isBlank]
  have hwrites : Writes "logs.eu.id" text :=
    .attributed hname (by decide : ".arn" ∈ _) ⟨"\t", " ", hblank.2.1, hblank.1, rfl⟩
      ⟨" ", "\n", hblank.1, hblank.2.2, by decide⟩
  exact ⟨hwrites, key_of_writes hwrites⟩

end StackAudit.Reference
