import StackAudit.Adapter
import StackAudit.Proofs.Text.Blank
import StackAudit.Proofs.Text.Lines

/-!
# Values under several keys

A setting may be written under one of several keys, and the first of them that says anything counts.
A key that is missing and one with `null` say nothing.
-/
namespace StackAudit.Json

/-- Nothing is said: the value is missing or `null`. -/
def Unset (o : Option Json) : Prop := o = none ∨ o = some .null

instance (o : Option Json) : Decidable (Unset o) := inferInstanceAs (Decidable (_ ∨ _))

/-- The value stands under the first of the keys that says anything. -/
inductive FirstOf (v : Json) : List String → Json → Prop where
  | here {k : String} {ks : List String} {x : Json} (h : v.get? k = some x) (hx : x ≠ .null) :
    FirstOf v (k :: ks) x
  | later {k : String} {ks : List String} {x : Json} (h : Unset (v.get? k))
    (hx : FirstOf v ks x) : FirstOf v (k :: ks) x

theorem nonNull?_eq_none_iff {v : Json} : v.nonNull? = none ↔ v = .null := by
  cases v <;> simp [nonNull?]

theorem bind_nonNull?_eq_none_iff {o : Option Json} : o.bind nonNull? = none ↔ Unset o := by
  cases o with
  | none => simp [Unset]
  | some v => simp [Unset, nonNull?_eq_none_iff]

theorem bind_nonNull?_eq_some_iff {o : Option Json} {x : Json} :
    o.bind nonNull? = some x ↔ o = some x ∧ x ≠ .null := by
  rcases o with _ | v
  · simp
  · cases v <;> grind [nonNull?]

theorem firstOf?_cons (fields : List (String × Json)) (k : String) (ks : List String) :
    firstOf? fields (k :: ks) = ((fields.lookup k).bind nonNull?).or (firstOf? fields ks) := by
  rw [firstOf?, List.findSome?_cons]
  cases (fields.lookup k).bind nonNull? <;> rfl

theorem firstOf?_eq_some_iff {fields : List (String × Json)} {ks : List String} {x : Json} :
    firstOf? fields ks = some x ↔ FirstOf (.obj fields) ks x := by
  induction ks with
  | nil =>
    constructor
    · intro h
      cases h
    · intro h
      cases h
  | cons k ks ih =>
    rw [firstOf?_cons, Option.or_eq_some_iff, bind_nonNull?_eq_some_iff, bind_nonNull?_eq_none_iff,
      ih]
    constructor
    · rintro (⟨h, hx⟩ | ⟨h, hx⟩)
      · exact .here h hx
      · exact .later h hx
    · rintro (⟨h, hx⟩ | ⟨h, hx⟩)
      · exact .inl ⟨h, hx⟩
      · exact .inr ⟨h, hx⟩

/-- Only mappings say anything under a key. -/
theorem FirstOf.exists_fields {v x : Json} {ks : List String} (h : FirstOf v ks x) :
    ∃ fields, v = .obj fields := by
  induction h with
  | here h _ =>
    cases v with
    | obj fields => exact ⟨fields, rfl⟩
    | _ => cases h
  | later _ _ ih => exact ih

/-- At most one value is the first. -/
theorem FirstOf.unique {v x y : Json} {ks : List String} (hx : FirstOf v ks x)
    (hy : FirstOf v ks y) : x = y := by
  obtain ⟨fields, rfl⟩ := hx.exists_fields
  rw [← firstOf?_eq_some_iff] at hx hy
  exact Option.some.inj (hx.symm.trans hy)

/-- To say something of the first value, whichever it is, is to say it of that value. -/
theorem FirstOf.exists_iff {v x : Json} {ks : List String} {P : Json → Prop} (h : FirstOf v ks x) :
    (∃ y, FirstOf v ks y ∧ P y) ↔ P x := by
  constructor
  · intro hy
    obtain ⟨y, hfirst, hP⟩ := hy
    exact h.unique hfirst ▸ hP
  · intro hP
    exact ⟨x, h, hP⟩

theorem firstOf_singleton_iff {v x : Json} {k : String} :
    FirstOf v [k] x ↔ v.get? k = some x ∧ x ≠ .null := by
  constructor
  · intro h
    cases h with
    | here h hx => exact ⟨h, hx⟩
    | later _ h => cases h
  · intro h
    exact .here h.1 h.2

/-- Where no spelling says anything, each of them is missing or `null`. -/
theorem unset_of_forall_not_firstOf {v : Json} {ks : List String} {k : String} (hk : k ∈ ks)
    (h : ¬∃ x, v.FirstOf ks x) : Unset (v.get? k) := by
  induction ks with
  | nil => exact absurd hk List.not_mem_nil
  | cons k' ks ih =>
    have hhead : Unset (v.get? k') := by
      by_contra hset
      obtain ⟨hsome, hnull⟩ := not_or.1 hset
      obtain ⟨x, hx⟩ := Option.ne_none_iff_exists'.1 hsome
      exact h ⟨x, .here hx fun heq => hnull (heq ▸ hx)⟩
    rcases List.mem_cons.1 hk with rfl | hk
    · exact hhead
    · apply ih hk
      intro hlater
      obtain ⟨x, hx⟩ := hlater
      exact h ⟨x, .later hhead hx⟩

/-- A missing setting and `null` have nothing below them. -/
theorem bind_get?_of_unset {o : Option Json} (h : Unset o) (k : String) :
    o.bind (·.get? k) = none := by
  rcases h with rfl | rfl <;> rfl

/-- A path of one segment that is no number leads to what is under that key. -/
theorem lookup?_eq_get? {k : String} (hne : k ≠ "") (hdot : '.' ∉ k.toList)
    (hposition : position? k = none) (v : Json) : v.lookup? k = v.get? k := by
  rw [lookup?, segments, if_neg hne, Text.pieces_of_notMem hdot, followAll?, List.foldlM_cons]
  cases v <;> simp [step?, get?, asObj?, hposition]

theorem nonBlank?_eq_some_iff {v : Json} {t : String} :
    v.nonBlank? = some t ↔ ∃ s, v = .str s ∧ ¬Text.IsBlankText s ∧ Text.trim s = t := by
  cases v <;> simp [nonBlank?, asStr?, Text.trimmed?_eq_some_iff]

theorem get?_canonical (v : Json) (k : String) :
    v.canonical.get? k = (v.get? k).map canonical := by
  cases v with
  | obj fields =>
    rw [canonical]
    exact get?_canonicalFields fields k
  | _ => simp [canonical, get?, asObj?]

theorem canonical_eq_str_iff {v : Json} {s : String} : v.canonical = .str s ↔ v = .str s := by
  cases v <;> simp [canonical]

theorem canonical_arr (items : List Json) :
    (Json.arr items).canonical = .arr (items.map canonical) := by
  rw [canonical, canonicalItems_eq_map]

theorem canonical_eq_null_iff {v : Json} : v.canonical = .null ↔ v = .null := by
  cases v <;> simp [canonical]

theorem unset_map_canonical_iff {o : Option Json} : Unset (o.map canonical) ↔ Unset o := by
  cases o <;> simp [Unset, canonical_eq_null_iff]

theorem lookup_filterMap_fst (l : List (String × Option Json)) (k : String) :
    (l.filterMap fun e => e.2.map fun v => (e.1, v)).lookup k =
      l.findSome? fun e => if k = e.1 then e.2 else none := by
  induction l with
  | nil => rfl
  | cons e l ih =>
    obtain ⟨k', o⟩ := e
    cases o with
    | none => simpa using ih
    | some v =>
      rw [List.filterMap_cons, Option.map_some, KeyMap.lookup_cons_ite, List.findSome?_cons, ih]
      by_cases hk : k = k' <;> simp [hk]

/-- A field of a mapping that is put together from fields which may be absent. -/
theorem get?_ofFields (l : List (String × Option Json)) (k : String) :
    (ofFields l).get? k = (l.findSome? fun e => if k = e.1 then e.2 else none).map canonical := by
  rw [ofFields, ← lookup_filterMap_fst, ← get?_canonicalFields]
  rfl

end StackAudit.Json
