import Mathlib.Data.List.Forall2
import StackAudit.Proofs.Except
import StackAudit.Proofs.Json.Spellings
import StackAudit.Proofs.Rules.Decision
import StackAudit.Rules.Containers

/-!
# Which containers are judged

The rules about containers judge every container that a workload lists, or the one that stands alone.
With a container at hand they decide whether none of them has an issue.
-/
namespace StackAudit

namespace Rules

open Json (Unset)

/-- The containers in the list at a path: none where nothing is said, and else the items of a
sequence of mappings. -/
inductive ListsContainers (r : Resource) (path : String) : List Json → Prop where
  | unset (h : Unset (r.property? path)) : ListsContainers r path []
  | items {cs : List Json} (h : r.property? path = some (.arr cs))
    (hcs : ∀ c ∈ cs, ∃ fields, c = .obj fields) : ListsContainers r path cs

/-- The containers of a resource: itself if it stands alone, and else those in both lists. -/
inductive HasContainers (r : Resource) : List Json → Prop where
  | alone (h : r.kind = .container) : HasContainers r [.ofKeyMap r.properties]
  | listed {main first : List Json} (h : r.kind = .workload)
    (hmain : ListsContainers r "spec.containers" main)
    (hfirst : ListsContainers r "spec.initContainers" first) : HasContainers r (main ++ first)

/-- What a container says under a field of its security context. -/
def securitySetting? (c : Json) (field : String) : Option Json :=
  (c.get? "securityContext").bind (·.get? field)

namespace ContainerSpec

theorem securityField?_eq (c : ContainerSpec) (field : String) :
    c.securityField? field = securitySetting? c.value field := by
  rw [securityField?, Json.lookup?_eq_get? (by decide) (by decide) (by decide +kernel)]
  rfl

/-- The container that a value declares, by its own name or without one. -/
def ofValue (c : Json) : ContainerSpec := ⟨((c.get? "name").bind Json.nonBlank?).getD "<unnamed>", c⟩

/-- A list of containers is read item by item, without regard to its place. -/
theorem listAt_eq_ok {r : Resource} {path : String} {cs : List Json}
    (h : ListsContainers r path cs) : listAt r path = .ok (cs.map ofValue) := by
  cases h with
  | unset h =>
    rw [listAt, Json.bind_nonNull?_eq_none_iff.2 h]
    rfl
  | items h hcs =>
    have hitems : List.Forall₂ (fun e c => ofItem path e.2 e.1 = .ok c) cs.zipIdx
        (cs.zipIdx.map fun e => ofValue e.1) := by
      rw [List.forall₂_map_right_iff, List.forall₂_same]
      intro e he
      obtain ⟨fields, hfields⟩ := hcs e.1 (List.fst_mem_of_mem_zipIdx he)
      rw [hfields]
      rfl
    have hvalues : (cs.zipIdx.map fun e => ofValue e.1) = cs.map ofValue :=
      calc (cs.zipIdx.map fun e => ofValue e.1)
          = (cs.zipIdx.map Prod.fst).map ofValue := by rw [List.map_map, Function.comp_def]
        _ = cs.map ofValue := by rw [List.zipIdx_map_fst]
    rw [hvalues] at hitems
    rw [listAt, h]
    exact mapM_eq_ok_iff.2 hitems

/-- The containers of a workload are those in both lists. -/
theorem all_eq_ok {r : Resource} {main first : List Json} (h : r.kind = .workload)
    (hmain : ListsContainers r "spec.containers" main)
    (hfirst : ListsContainers r "spec.initContainers" first) :
    all r = .ok ((main ++ first).map ofValue) := by
  have hkind : r.kind ≠ .container := by
    rw [h]
    decide
  rw [all, if_neg hkind, listAt_eq_ok hmain, listAt_eq_ok hfirst, List.map_append]
  rfl

theorem exists_all {r : Resource} {cs : List Json} (h : HasContainers r cs) :
    ∃ specs, all r = .ok specs ∧ specs.map value = cs := by
  cases h with
  | alone h => exact ⟨_, by rw [all, if_pos h], rfl⟩
  | listed h hmain hfirst =>
    refine ⟨_, all_eq_ok h hmain hfirst, ?_⟩
    rw [List.map_map]
    exact List.map_id _

end ContainerSpec

/-- With a container at hand the judgement is whether any of them has an issue. -/
theorem judgeContainers_eq {r : Resource} {specs : List ContainerSpec}
    (hspecs : ContainerSpec.all r = .ok specs) (hne : specs ≠ [])
    (issues : ContainerSpec → List String) (allWell : String) :
    judgeContainers r issues allWell =
      .ok (if (specs.flatMap issues).isEmpty then .pass allWell
        else .violation ("; ".intercalate (specs.flatMap issues))) := by
  rw [judgeContainers, hspecs, ok_bind, if_neg (by simpa using hne)]
  rfl

end Rules

end StackAudit
