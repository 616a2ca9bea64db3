import StackAudit.Proofs.Adapters.Bucket
import StackAudit.Proofs.Resource
import StackAudit.Proofs.Rules.Decision
import StackAudit.Rules.Bucket

/-!
# Rules that look for a text in a list

Two rules for buckets look through the items of a property for a text under some key. With a sequence
at hand, or nothing at all, they decide whether there is one; anything else stops them.
-/
namespace StackAudit

open Json (Unset)

/-- The value has a text under the key that is not blank. -/
def Json.HasText (v : Json) (k : String) : Prop :=
  ∃ s, v.get? k = some (.str s) ∧ ¬Text.IsBlankText s

namespace Json

theorem exists_nonBlank?_iff {v : Json} {k : String} :
    (∃ t, (v.get? k).bind nonBlank? = some t) ↔ v.HasText k := by
  simp only [Option.bind_eq_some_iff, nonBlank?_eq_some_iff, HasText]
  constructor
  · rintro ⟨t, _, hv, s, rfl, hs, -⟩
    exact ⟨s, hv, hs⟩
  · rintro ⟨s, hv, hs⟩
    exact ⟨_, _, hv, s, rfl, hs, rfl⟩

theorem hasText_canonical_iff {v : Json} {k : String} : v.canonical.HasText k ↔ v.HasText k := by
  simp only [HasText, get?_canonical, Option.map_eq_some_iff, canonical_eq_str_iff, exists_eq_right]

end Json

namespace Rules

variable {r : Resource}

theorem exists_firstText?_iff {items : List Json} {k : String} :
    (∃ t, firstText? items k = some t) ↔ ∃ item ∈ items, item.HasText k := by
  rw [← Option.isSome_iff_exists, firstText?, List.findSome?_isSome_iff]
  simp only [Option.isSome_iff_exists, Json.exists_nonBlank?_iff]

theorem itemsAt_of_unset {path : String} (h : Unset (r.property? path)) :
    itemsAt r path = .ok [] := by
  rw [itemsAt, Json.bind_nonNull?_eq_none_iff.2 h]

theorem itemsAt_of_arr {path : String} {items : List Json}
    (h : r.property? path = some (.arr items)) : itemsAt r path = .ok items := by
  rw [itemsAt, h]
  rfl

theorem itemsAt_of_misshaped {path : String} (hset : ¬Unset (r.property? path))
    (harr : ∀ items, r.property? path ≠ some (.arr items)) :
    itemsAt r path = .error (.unexpectedShape path "a sequence") := by
  unfold itemsAt
  cases hv : (r.property? path).bind Json.nonNull? with
  | none => exact absurd (Json.bind_nonNull?_eq_none_iff.1 hv) hset
  | some v =>
    obtain ⟨hv, -⟩ := Json.bind_nonNull?_eq_some_iff.1 hv
    cases v with
    | arr items => exact absurd hv (harr items)
    | _ => rfl

/-- A rule that passes by the first text, and is a violation without one, decides whether there is
one. -/
theorem decides_of_firstText? {rule : Rule} {g : Graph} {path key : String} {items : List Json}
    {found : String → String} {missing : String}
    (hjudge : rule.judge r g = do
      match firstText? (← itemsAt r path) key with
      | some t => .ok (.pass (found t))
      | none => .ok (.violation missing))
    (h : itemsAt r path = .ok items) : rule.Decides r g (∃ item ∈ items, item.HasText key) := by
  rw [h, ok_bind] at hjudge
  rw [← exists_firstText?_iff]
  cases htext : firstText? items key with
  | some t =>
    rw [htext] at hjudge
    exact Rule.decides_of_judge hjudge (fun _ => rfl) (fun hnone => absurd ⟨t, rfl⟩ hnone)
  | none =>
    rw [htext] at hjudge
    exact Rule.decides_of_judge hjudge (by simp) (fun _ => rfl)

/-- The declaration of a bucket with the given properties. -/
def bucketDeclaration (properties : Json) : Declaration where
  doc := ⟨.here, 0, some "b"⟩
  typeToken := "aws:s3/bucket:Bucket"
  id := "b"
  properties := properties
  physicalId := none
  outputs := .obj []

end Rules

end StackAudit
