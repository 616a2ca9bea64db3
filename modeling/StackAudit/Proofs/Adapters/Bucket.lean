import StackAudit.Proofs.Adapters
import StackAudit.Proofs.Json.Spellings

/-!
# The settings of a bucket

A setting of a bucket is taken from the first of its spellings that says anything, and kept in one
form under one name. Where no spelling says anything, the resource has what was declared under that
name, whatever it is.
-/
namespace StackAudit.Adapters

open Json (FirstOf firstOf?)

/-- What a resource has under the name of a setting: the normal form of what was declared under the
spellings of the setting, or else what was declared under its name. -/
def Rewritten (declared : Json) (ks : List String) (name : String)
    (normal : Json → Except Malformed Json) (property : Option Json) : Prop :=
  (∃ v w, declared.FirstOf ks v ∧ normal v = .ok w ∧ property = some w) ∨
    (¬∃ v, declared.FirstOf ks v) ∧ property = (declared.get? name).map Json.canonical

variable {fields : List (String × Json)} {ks : List String} {name : String}
  {normal : Json → Except Malformed Json} {m m' : KeyMap Json}

/-- Other settings are not touched. -/
theorem get?_of_rewriteProperty {k : String} (h : rewriteProperty fields ks name normal m = .ok m')
    (hk : k ≠ name) : m'.get? k = m.get? k := by
  unfold rewriteProperty at h
  split at h
  · cases h
    rfl
  · obtain ⟨w, -, rfl⟩ := map_eq_ok_iff.1 h
    rw [KeyMap.get?_insert, if_neg hk]

theorem rewritten_of_rewriteProperty (h : rewriteProperty fields ks name normal m = .ok m')
    (hm : m.get? name = ((Json.obj fields).get? name).map Json.canonical) :
    Rewritten (.obj fields) ks name normal (m'.get? name) := by
  unfold rewriteProperty at h
  split at h
  · rename_i hnone
    cases h
    refine .inr ⟨?_, hm⟩
    rintro ⟨v, hv⟩
    rw [Json.firstOf?_eq_some_iff.2 hv] at hnone
    cases hnone
  · rename_i v hv
    obtain ⟨w, hw, rfl⟩ := map_eq_ok_iff.1 h
    exact .inl ⟨v, w, Json.firstOf?_eq_some_iff.1 hv, hw, KeyMap.get?_insert_self _ _ _⟩

/-- A setting that has one of its spellings for its name has its normal form or nothing. -/
theorem Rewritten.unset {declared : Json} {property : Option Json}
    (h : Rewritten declared ks name normal property) (hname : name ∈ ks)
    (hnone : ¬∃ v, declared.FirstOf ks v) : Json.Unset property := by
  rcases h with ⟨v, w, hv, -, -⟩ | ⟨-, rfl⟩
  · exact absurd ⟨v, hv⟩ hnone
  · exact Json.unset_map_canonical_iff.2 (Json.unset_of_forall_not_firstOf hname hnone)

/-- Each setting of an accepted bucket is kept on its own. -/
theorem rewritten_of_bucket {d : Declaration} {a : Adapted} (h : bucket d = .ok a) :
    let p := a.resource.properties
    Rewritten d.properties ["acl"] "acl" (fun v => .ok v.canonical) (p.get? "acl") ∧
    Rewritten d.properties
      ["serverSideEncryptionConfiguration", "server_side_encryption_configuration"]
      "serverSideEncryption" (encryption d) (p.get? "serverSideEncryption") ∧
    Rewritten d.properties ["versioning", "versioningConfiguration"] "versioning" (versioning d)
      (p.get? "versioning") ∧
    Rewritten d.properties ["loggings", "logging"] "logging" (logging d) (p.get? "logging") := by
  simp only [bucket, bind_eq_ok_iff, fields_eq_ok_iff] at h
  obtain ⟨fields, hd, p₁, hacl, p₂, hencryption, p₃, hversioning, p₄, hlogging, h⟩ := h
  obtain rfl := Except.ok.inj h
  have hstart (k : String) :
      d.canonicalProperties.get? k = ((Json.obj fields).get? k).map Json.canonical := by
    rw [d.get?_canonicalProperties, hd]
  have h₁ {k : String} (hk : k ≠ "acl") := get?_of_rewriteProperty hacl hk
  have h₂ {k : String} (hk : k ≠ "serverSideEncryption") := get?_of_rewriteProperty hencryption hk
  have h₃ {k : String} (hk : k ≠ "versioning") := get?_of_rewriteProperty hversioning hk
  have h₄ {k : String} (hk : k ≠ "logging") := get?_of_rewriteProperty hlogging hk
  rw [hd]
  refine ⟨?_, ?_, ?_, ?_⟩
  · rw [Declaration.toResource, h₄ (by decide), h₃ (by decide), h₂ (by decide)]
    exact rewritten_of_rewriteProperty hacl (hstart _)
  · rw [Declaration.toResource, h₄ (by decide), h₃ (by decide)]
    exact rewritten_of_rewriteProperty hencryption (by rw [h₁ (by decide), hstart])
  · rw [Declaration.toResource, h₄ (by decide)]
    exact rewritten_of_rewriteProperty hversioning
      (by rw [h₂ (by decide), h₁ (by decide), hstart])
  · exact rewritten_of_rewriteProperty hlogging
      (by rw [h₃ (by decide), h₂ (by decide), h₁ (by decide), hstart])

end StackAudit.Adapters
