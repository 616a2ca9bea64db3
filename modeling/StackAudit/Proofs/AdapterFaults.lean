import StackAudit.Proofs.Adapters

/-!
# What adapters refuse

An adapter refuses a declaration only because a property does not have the shape that it needs, and
its error says which property of which document that is. A type without an adapter is refused as a
whole, unless unknown types are kept.
-/
namespace StackAudit

/-- The error is about the shape of a property of the declaration. -/
def Declaration.Misshapen (d : Declaration) (e : Malformed) : Prop :=
  ∃ path expected, e = d.misshaped path expected

namespace Adapters

variable (d : Declaration)

theorem failsOnly_misshaped {α : Type} (path expected : String) :
    FailsOnly d.Misshapen (.error (d.misshaped path expected) : Except Malformed α) :=
  .error ⟨path, expected, rfl⟩

theorem failsOnly_fields : FailsOnly d.Misshapen d.fields := by
  unfold Declaration.fields
  split
  · exact .ok _
  · exact failsOnly_misshaped d _ _

theorem failsOnly_blockedBucket (fields : List (String × Json)) :
    FailsOnly d.Misshapen (blockedBucket d fields) := by
  unfold blockedBucket
  split
  · exact failsOnly_misshaped d _ _
  · split
    · exact failsOnly_misshaped d _ _
    · exact .ok _

theorem failsOnly_accessBlock : FailsOnly d.Misshapen (accessBlock d) :=
  .bind (failsOnly_fields d) fun fields =>
    .bind (failsOnly_blockedBucket d fields) fun _ => .ok _

theorem failsOnly_encryptionRule (rule : Json) : FailsOnly d.Misshapen (encryptionRule d rule) := by
  unfold encryptionRule
  split
  · split
    · exact .ok _
    · exact .ok _
    · exact failsOnly_misshaped d _ _
  · exact failsOnly_misshaped d _ _

theorem failsOnly_encryption (v : Json) : FailsOnly d.Misshapen (encryption d v) := by
  unfold encryption
  split
  · exact .bind (.mapM fun rule _ => failsOnly_encryptionRule d rule) fun _ => .ok _
  · exact failsOnly_misshaped d _ _

theorem failsOnly_versioning (v : Json) : FailsOnly d.Misshapen (versioning d v) := by
  unfold versioning
  split
  · exact .ok _
  · exact failsOnly_misshaped d _ _

theorem failsOnly_loggingTarget (v : Json) : FailsOnly d.Misshapen (loggingTarget d v) := by
  unfold loggingTarget
  split
  · exact .ok _
  · exact failsOnly_misshaped d _ _

theorem failsOnly_logging (v : Json) : FailsOnly d.Misshapen (logging d v) :=
  .bind (.mapM fun target _ => failsOnly_loggingTarget d target) fun _ => .ok _

theorem failsOnly_rewriteProperty {normal : Json → Except Malformed Json}
    (h : ∀ v, FailsOnly d.Misshapen (normal v)) (fields : List (String × Json))
    (ks : List String) (name : String) (properties : KeyMap Json) :
    FailsOnly d.Misshapen (rewriteProperty fields ks name normal properties) := by
  unfold rewriteProperty
  split
  · exact .ok _
  · exact .map _ (h _)

theorem failsOnly_bucket : FailsOnly d.Misshapen (bucket d) :=
  .bind (failsOnly_fields d) fun fields =>
    .bind (failsOnly_rewriteProperty d (fun _ => .ok _) fields _ _ _) fun _ =>
      .bind (failsOnly_rewriteProperty d (failsOnly_encryption d) fields _ _ _) fun _ =>
        .bind (failsOnly_rewriteProperty d (failsOnly_versioning d) fields _ _ _) fun _ =>
          .bind (failsOnly_rewriteProperty d (failsOnly_logging d) fields _ _ _) fun _ => .ok _

theorem failsOnly_podSpec : FailsOnly d.Misshapen (podSpec d) := by
  unfold podSpec
  dsimp only
  split
  · exact .ok _
  · exact .ok _
  · exact .ok _
  · exact failsOnly_misshaped d _ _

theorem failsOnly_workload : FailsOnly d.Misshapen (workload d) := by
  refine .bind (failsOnly_fields d) fun fields => ?_
  dsimp only
  split
  · exact .bind (failsOnly_podSpec d) fun _ => .ok _
  · exact .bind (failsOnly_podSpec d) fun _ => .ok _
  · exact failsOnly_misshaped d _ _

theorem failsOnly_declaredSecurity : FailsOnly d.Misshapen (declaredSecurity d) := by
  unfold declaredSecurity
  split
  · exact .ok _
  · exact .ok _
  · exact .ok _
  · exact failsOnly_misshaped d _ _

theorem failsOnly_addOptions (fields : List (String × Json)) (security : Json) :
    FailsOnly d.Misshapen (addOptions d fields security) := by
  unfold addOptions
  split
  · exact .ok _
  · split
    · exact .ok _
    · exact .ok _
  · exact failsOnly_misshaped d _ _

theorem failsOnly_container : FailsOnly d.Misshapen (container d) :=
  .bind (failsOnly_fields d) fun fields =>
    .bind (failsOnly_declaredSecurity d) fun _ =>
      .bind (failsOnly_addOptions d fields _) fun _ => .ok _

end Adapters

namespace Assembly

/-- A declaration is refused for the shape of one of its properties, or for a type that has no
adapter where such types are not kept. -/
theorem failsOnly_adapt_builtin (unknown : UnknownKinds) (d : Declaration) :
    FailsOnly (fun e => d.Misshapen e ∨ unknown = .reject ∧ e = .unknownKind d.doc d.typeToken)
      (adapt .builtin unknown d) := by
  intro e he
  cases hget : AdapterRegistry.builtin.get? d.typeToken with
  | some adapter =>
    rw [adapt_of_get?_eq_some hget] at he
    left
    rcases AdapterRegistry.mem_builtinEntries_iff.1
      (AdapterRegistry.get?_builtin_eq_some_iff.1 hget) with
      ⟨-, rfl⟩ | ⟨-, rfl⟩ | ⟨-, rfl⟩ | ⟨-, rfl⟩
    · exact Adapters.failsOnly_bucket d e he
    · exact Adapters.failsOnly_accessBlock d e he
    · exact Adapters.failsOnly_workload d e he
    · exact Adapters.failsOnly_container d e he
  | none =>
    unfold adapt at he
    rw [hget] at he
    cases unknown with
    | reject => exact .inr ⟨rfl, (Except.error.inj he).symm⟩
    | passthrough => cases he

end Assembly

end StackAudit
