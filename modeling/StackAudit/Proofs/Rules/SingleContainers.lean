import StackAudit.Evaluation
import StackAudit.Proofs.Resource
import StackAudit.Proofs.Rules.Containers
import StackAudit.Rules.Hardening
import StackAudit.Rules.Image

/-!
# Containers judged one by one

The rules about containers judge a workload as they would judge each of its containers alone in the
same workload: it is violated as soon as one of these is. So no container hides another, and neither
their order nor the list that they stand in matters.
-/
namespace StackAudit

namespace Json

/-- The fields of a mapping with one of them set, or left out. -/
def replaceField (k : String) (x : Option Json) (fields : List (String × Json)) :
    List (String × Json) :=
  let others := fields.filter fun e => e.1 ≠ k
  match x with
  | some v => KeyMap.insertEntry k v others
  | none => others

theorem lookup_replaceField (k k' : String) (x : Option Json) (fields : List (String × Json)) :
    (replaceField k x fields).lookup k' = if k' = k then x else fields.lookup k' := by
  cases x with
  | none => exact KeyMap.lookup_filter_ne k k' fields
  | some v =>
    rw [replaceField, KeyMap.lookup_insertEntry, KeyMap.lookup_filter_ne]
    by_cases h : k' = k <;> simp [h]

end Json

/-- Outcomes are told apart by whether they say anything and whether they are violations. -/
theorem Outcome.eq_of_iff {a b : Outcome} (hnone : a = .notApplicable ↔ b = .notApplicable)
    (hviolation : a = .violation ↔ b = .violation) : a = b := by
  cases a <;> cases b <;> simp at hnone hviolation ⊢

namespace Resource

/-- The fields of the specification, none if it is no mapping. -/
def specFields (r : Resource) : List (String × Json) :=
  match r.properties.get? "spec" with
  | some (.obj fields) => fields
  | _ => []

/-- The same resource with other lists of containers, of which each may be left out. -/
def withLists (r : Resource) (main first : Option Json) : Resource :=
  let fields := Json.replaceField "containers" main
    (Json.replaceField "initContainers" first r.specFields)
  { r with properties := r.properties.insert "spec" (.obj fields) }

/-- The same resource with a single container. -/
def withContainer (r : Resource) (c : Json) : Resource := r.withLists (some (.arr [c])) none

variable (r : Resource)

theorem bind_get?_spec (k : String) :
    (r.properties.get? "spec").bind (·.get? k) = r.specFields.lookup k := by
  unfold specFields
  split
  · rename_i fields h
    rw [h]
    rfl
  · rename_i h
    cases hspec : r.properties.get? "spec" with
    | none => rfl
    | some v =>
      cases v with
      | obj fields => exact absurd hspec (h fields)
      | _ => rfl

variable (main first : Option Json)

theorem lookup_specFields_withLists (k : String) :
    (r.withLists main first).specFields.lookup k =
      if k = "containers" then main else if k = "initContainers" then first
        else r.specFields.lookup k := by
  have hspec : (r.withLists main first).specFields = Json.replaceField "containers" main
      (Json.replaceField "initContainers" first r.specFields) := by
    rw [specFields, withLists, KeyMap.get?_insert, if_pos rfl]
  rw [hspec, Json.lookup_replaceField, Json.lookup_replaceField]

/-- Of the specification, only the two lists are replaced. -/
theorem property?_withLists {path k : String} (h : Text.splitFirst '.' path = some ("spec", k))
    (hne : k ≠ "") (hdot : '.' ∉ k.toList) (hposition : Json.position? k = none) :
    (r.withLists main first).property? path =
      if k = "containers" then main else if k = "initContainers" then first
        else r.property? path := by
  rw [property?_of_pair _ h hne hdot hposition, bind_get?_spec, lookup_specFields_withLists,
    property?_of_pair r h hne hdot hposition, bind_get?_spec]

theorem property?_containers_withLists :
    (r.withLists main first).property? "spec.containers" = main := by
  have hsplit : Text.splitFirst '.' "spec.containers" = some ("spec", "containers") := by
    decide +kernel
  rw [property?_withLists r main first hsplit (by decide) (by decide) (by decide +kernel),
    if_pos rfl]

theorem property?_initContainers_withLists :
    (r.withLists main first).property? "spec.initContainers" = first := by
  have hsplit : Text.splitFirst '.' "spec.initContainers" = some ("spec", "initContainers") := by
    decide +kernel
  rw [property?_withLists r main first hsplit (by decide) (by decide) (by decide +kernel),
    if_neg (by decide), if_pos rfl]

theorem property?_securityContext_withLists :
    (r.withLists main first).property? "spec.securityContext" =
      r.property? "spec.securityContext" := by
  have hsplit : Text.splitFirst '.' "spec.securityContext" = some ("spec", "securityContext") := by
    decide +kernel
  rw [property?_withLists r main first hsplit (by decide) (by decide) (by decide +kernel),
    if_neg (by decide), if_neg (by decide)]

end Resource

namespace Rules

open Json (Unset)

/-- The rules about containers. -/
def containerRules : List Rule :=
  [noMutableImageTag, noPrivilegedContainers, resourceLimitsRequired, nonRootRequired]

/-- In the place of a list of containers something else is said. -/
def Misshapen (r : Resource) (path : String) : Prop :=
  ∃ v, r.property? path = some v ∧ v ≠ .null ∧
    ¬∃ cs, v = .arr cs ∧ ∀ c ∈ cs, ∃ fields, c = .obj fields

/-- Both lists of a workload are lists of containers, as far as anything is said. -/
structure Readable (r : Resource) : Prop where
  main : ¬Misshapen r "spec.containers"
  first : ¬Misshapen r "spec.initContainers"

/-- The list at a path is missing or empty. -/
def ListsNone (r : Resource) (path : String) : Prop :=
  Unset (r.property? path) ∨ r.property? path = some (.arr [])

/-- The items of the list at a path. -/
def itemsOf (r : Resource) (path : String) : List Json :=
  match r.property? path with
  | some (.arr cs) => cs
  | _ => []

/-- The containers that a workload lists. -/
def listed (r : Resource) : List Json :=
  itemsOf r "spec.containers" ++ itemsOf r "spec.initContainers"

variable {r s : Resource} {path : String} {cs : List Json} {g : Graph} {rule : Rule}

theorem listsContainers_of_not_misshapen (h : ¬Misshapen r path) :
    ListsContainers r path (itemsOf r path) := by
  cases hv : r.property? path with
  | none =>
    rw [itemsOf, hv]
    exact .unset (.inl hv)
  | some v =>
    by_cases hnull : v = .null
    · rw [itemsOf, hv, hnull]
      exact .unset (.inr (hnull ▸ hv))
    · obtain ⟨cs, rfl, hcs⟩ : ∃ cs, v = .arr cs ∧ ∀ c ∈ cs, ∃ fields, c = .obj fields := by
        by_contra hshape
        exact h ⟨v, hv, hnull, hshape⟩
      rw [itemsOf, hv]
      exact .items hv hcs

theorem not_misshapen_of_listsContainers (h : ListsContainers r path cs) : ¬Misshapen r path := by
  rintro ⟨v, hv, hnull, hshape⟩
  cases h with
  | unset h =>
    rw [hv] at h
    rcases h with h | h
    · cases h
    · exact hnull (Option.some.inj h)
  | items h hcs =>
    rw [hv] at h
    exact hshape ⟨cs, Option.some.inj h, hcs⟩

theorem exists_fields_of_mem_itemsOf (h : ¬Misshapen r path) {c : Json}
    (hc : c ∈ itemsOf r path) : ∃ fields, c = .obj fields := by
  have hlists := listsContainers_of_not_misshapen h
  generalize itemsOf r path = cs at hlists hc
  cases hlists with
  | unset _ => cases hc
  | items _ hcs => exact hcs c hc

theorem itemsOf_eq_nil_iff (h : ¬Misshapen r path) : itemsOf r path = [] ↔ ListsNone r path := by
  have hlists := listsContainers_of_not_misshapen h
  generalize itemsOf r path = cs at hlists
  cases hlists with
  | unset hunset => exact iff_of_true rfl (.inl hunset)
  | items hcs _ => simp [ListsNone, Unset, hcs]

theorem not_misshapen_of_listAt {specs : List ContainerSpec}
    (h : ContainerSpec.listAt r path = .ok specs) : ¬Misshapen r path := by
  rintro ⟨v, hv, hnull, hshape⟩
  have hsaid : (r.property? path).bind Json.nonNull? = some v :=
    Json.bind_nonNull?_eq_some_iff.2 ⟨hv, hnull⟩
  rw [ContainerSpec.listAt, hsaid] at h
  cases v with
  | arr cs =>
    refine hshape ⟨cs, rfl, fun c hc => ?_⟩
    rw [← List.zipIdx_map_fst 0 cs] at hc
    obtain ⟨⟨c, i⟩, hi, rfl⟩ := List.mem_map.1 hc
    obtain ⟨spec, hspec⟩ := exists_of_mem_of_mapM_eq_ok h hi
    cases c with
    | obj fields => exact ⟨fields, rfl⟩
    | _ => cases hspec
  | _ => cases h

/-- A workload with a list that cannot be read has no containers to judge. -/
theorem exists_all_eq_error (hr : r.kind = .workload) (h : ¬Readable r) :
    ∃ f, ContainerSpec.all r = .error f := by
  cases hall : ContainerSpec.all r with
  | error f => exact ⟨f, rfl⟩
  | ok specs =>
    have hkind : r.kind ≠ .container := by
      rw [hr]
      decide
    rw [ContainerSpec.all, if_neg hkind] at hall
    obtain ⟨main, hmain, hrest⟩ := bind_eq_ok_iff.1 hall
    obtain ⟨first, hfirst, -⟩ := bind_eq_ok_iff.1 hrest
    exact absurd ⟨not_misshapen_of_listAt hmain, not_misshapen_of_listAt hfirst⟩ h

theorem listed_eq_nil_iff (h : Readable r) :
    listed r = [] ↔ ListsNone r "spec.containers" ∧ ListsNone r "spec.initContainers" := by
  rw [listed, List.append_eq_nil_iff, itemsOf_eq_nil_iff h.main, itemsOf_eq_nil_iff h.first]

theorem exists_fields_of_mem_listed (h : Readable r) {c : Json} (hc : c ∈ listed r) :
    ∃ fields, c = .obj fields := by
  rcases List.mem_append.1 hc with hc | hc
  · exact exists_fields_of_mem_itemsOf h.main hc
  · exact exists_fields_of_mem_itemsOf h.first hc

theorem all_of_readable (hr : r.kind = .workload) (h : Readable r) :
    ContainerSpec.all r = .ok ((listed r).map ContainerSpec.ofValue) :=
  ContainerSpec.all_eq_ok hr (listsContainers_of_not_misshapen h.main)
    (listsContainers_of_not_misshapen h.first)

theorem judgeContainers_of_error {f : Fault} (h : ContainerSpec.all r = .error f)
    (issues : ContainerSpec → List String) (allWell : String) :
    judgeContainers r issues allWell = .error f := by
  rw [judgeContainers, h]
  rfl

/-- What is concluded from the issues of single containers. -/
theorem exists_judgeContainers {specs : List ContainerSpec}
    (hspecs : ContainerSpec.all r = .ok specs) (issues : ContainerSpec → List String)
    (allWell : String) :
    ∃ e, judgeContainers r issues allWell = .ok e ∧
      (e.outcome = .notApplicable ↔ specs = []) ∧
      (e.outcome = .violation ↔ ∃ c ∈ specs, issues c ≠ []) := by
  by_cases hnone : specs = []
  · subst hnone
    refine ⟨.notApplicable s!"'{r.displayName}' declares no containers", ?_, ?_, ?_⟩
    · rw [judgeContainers, hspecs]
      rfl
    · simp [Evaluation.notApplicable]
    · simp [Evaluation.notApplicable]
  · refine ⟨_, judgeContainers_eq hspecs hnone issues allWell, ?_, ?_⟩
    · rw [iff_false_right hnone]
      split <;> exact Outcome.noConfusion
    · by_cases hwell : ∀ c ∈ specs, issues c = []
      · rw [if_pos (by simpa using hwell)]
        simpa [Evaluation.pass] using hwell
      · rw [if_neg (by simpa using hwell)]
        simpa [Evaluation.violation] using hwell

/-- Each rule about containers looks for issues of a container, of which only the setting of the pod
is known besides. -/
theorem exists_issues (h : rule ∈ containerRules) :
    ∃ (issues : Option Bool → ContainerSpec → List String) (allWell : String),
      ∀ r g, rule.judge r g = judgeContainers r (issues (podNonRoot? r)) allWell := by
  simp only [containerRules, List.mem_cons, List.not_mem_nil, or_false] at h
  rcases h with rfl | rfl | rfl | rfl
  · exact ⟨fun _ => imageIssues, _, fun _ _ => rfl⟩
  · exact ⟨fun _ => privilegeIssues, _, fun _ _ => rfl⟩
  · exact ⟨fun _ => limitIssues, _, fun _ _ => rfl⟩
  · exact ⟨rootIssues, _, fun _ _ => rfl⟩

/-- A rule about containers takes each container of a workload as good or bad, knowing nothing else
but the setting of the pod. -/
theorem exists_bad (h : rule ∈ containerRules) :
    ∃ bad : Option Bool → Json → Prop, ∀ r g, r.kind = .workload → Readable r →
      (∃ e, rule.judge r g = .ok e) ∧
      ((Verdict.ofRule g r rule).outcome = .notApplicable ↔ listed r = []) ∧
      ((Verdict.ofRule g r rule).outcome = .violation ↔
        ∃ c ∈ listed r, bad (podNonRoot? r) c) := by
  obtain ⟨issues, allWell, hissues⟩ := exists_issues h
  refine ⟨fun pod c => issues pod (.ofValue c) ≠ [], fun r g hr hreadable => ?_⟩
  obtain ⟨e, he, hnone, hviolation⟩ := exists_judgeContainers (all_of_readable hr hreadable)
    (issues (podNonRoot? r)) allWell
  rw [← hissues r g] at he
  have houtcome : (Verdict.ofRule g r rule).outcome = e.outcome := by
    simp only [Verdict.ofRule, Evaluation.ofRule, he]
  rw [houtcome]
  refine ⟨⟨e, he⟩, hnone.trans List.map_eq_nil_iff, hviolation.trans ?_⟩
  simp only [List.mem_map, exists_exists_and_eq_and]

theorem listed_withContainer (r : Resource) (c : Json) : listed (r.withContainer c) = [c] := by
  rw [listed, itemsOf, itemsOf, Resource.withContainer, Resource.property?_containers_withLists,
    Resource.property?_initContainers_withLists]
  rfl

theorem readable_withContainer (r : Resource) (fields : List (String × Json)) :
    Readable (r.withContainer (.obj fields)) := by
  have hmain : ListsContainers (r.withContainer (.obj fields)) "spec.containers" [.obj fields] :=
    .items (Resource.property?_containers_withLists r _ _) (by simp)
  have hfirst : ListsContainers (r.withContainer (.obj fields)) "spec.initContainers" [] :=
    .unset (.inl (Resource.property?_initContainers_withLists r _ _))
  exact ⟨not_misshapen_of_listsContainers hmain, not_misshapen_of_listsContainers hfirst⟩

theorem podNonRoot?_withLists (r : Resource) (main first : Option Json) :
    podNonRoot? (r.withLists main first) = podNonRoot? r := by
  rw [podNonRoot?, Resource.property?_securityContext_withLists, podNonRoot?]

/-- A workload is judged as each of its containers would be in its place: it is violated as soon as
one of these is, and passes if there is a container and none is violated. -/
structure JudgesSingly (g : Graph) (rule : Rule) (r : Resource) : Prop where
  concludes : ∃ e, rule.judge r g = .ok e
  notApplicable_iff : (Verdict.ofRule g r rule).outcome = .notApplicable ↔
    ListsNone r "spec.containers" ∧ ListsNone r "spec.initContainers"
  violation_iff : (Verdict.ofRule g r rule).outcome = .violation ↔
    ∃ c ∈ listed r, (Verdict.ofRule g (r.withContainer c) rule).outcome = .violation
  pass_iff : (Verdict.ofRule g r rule).outcome = .pass ↔
    ¬(ListsNone r "spec.containers" ∧ ListsNone r "spec.initContainers") ∧
      ¬∃ c ∈ listed r, (Verdict.ofRule g (r.withContainer c) rule).outcome = .violation

theorem judgesSingly_of_mem_containerRules (h : rule ∈ containerRules) (g : Graph)
    (hr : r.kind = .workload) (hreadable : Readable r) : JudgesSingly g rule r := by
  obtain ⟨bad, hbad⟩ := exists_bad h
  obtain ⟨hconcludes, hnone, hviolation⟩ := hbad r g hr hreadable
  have hsingle : ∀ c ∈ listed r,
      ((Verdict.ofRule g (r.withContainer c) rule).outcome = .violation ↔
        bad (podNonRoot? r) c) := by
    intro c hc
    obtain ⟨fields, rfl⟩ := exists_fields_of_mem_listed hreadable hc
    obtain ⟨-, -, hsole⟩ := hbad (r.withContainer (.obj fields)) g hr
      (readable_withContainer r fields)
    rw [hsole, listed_withContainer, Resource.withContainer, podNonRoot?_withLists]
    simp
  have hviolation' : (Verdict.ofRule g r rule).outcome = .violation ↔
      ∃ c ∈ listed r, (Verdict.ofRule g (r.withContainer c) rule).outcome = .violation := by
    rw [hviolation]
    exact exists_congr fun c => and_congr_right fun hc => (hsingle c hc).symm
  rw [listed_eq_nil_iff hreadable] at hnone
  refine ⟨hconcludes, hnone, hviolation', ?_⟩
  rw [← hnone, ← hviolation']
  cases (Verdict.ofRule g r rule).outcome <;> simp

/-- Workloads with the same containers, in any order and in any of the lists, are judged alike. -/
theorem outcome_eq_of_perm (h : rule ∈ containerRules) (g : Graph)
    (hr : r.kind = .workload) (hs : s.kind = .workload) (hpod : podNonRoot? s = podNonRoot? r)
    (hreadable : Readable r) (hreadable' : Readable s) (hperm : (listed s).Perm (listed r)) :
    (Verdict.ofRule g s rule).outcome = (Verdict.ofRule g r rule).outcome := by
  obtain ⟨bad, hbad⟩ := exists_bad h
  obtain ⟨-, hnone, hviolation⟩ := hbad r g hr hreadable
  obtain ⟨-, hnone', hviolation'⟩ := hbad s g hs hreadable'
  have hsame : (∃ c ∈ listed s, bad (podNonRoot? s) c) ↔
      ∃ c ∈ listed r, bad (podNonRoot? r) c := by
    rw [hpod]
    exact exists_congr fun c => and_congr_left fun _ => hperm.mem_iff
  have hnil : listed s = [] ↔ listed r = [] := by
    rw [← List.length_eq_zero_iff, hperm.length_eq, List.length_eq_zero_iff]
  apply Outcome.eq_of_iff
  · rw [hnone', hnil, hnone]
  · rw [hviolation', hsame, hviolation]

/-- A rule about containers fails on a workload with a list that cannot be read. On any other it
judges the containers one by one, and comes to the same however they are arranged. -/
theorem containerRules_judgeSingly (h : rule ∈ containerRules) (hr : r.kind = .workload)
    (g : Graph) :
    (Misshapen r "spec.containers" ∨ Misshapen r "spec.initContainers" →
      (∃ f, rule.judge r g = .error f) ∧ (Verdict.ofRule g r rule).outcome = .violation) ∧
    (Readable r → JudgesSingly g rule r ∧
      ∀ main first, Readable (r.withLists main first) →
        (listed (r.withLists main first)).Perm (listed r) →
        (Verdict.ofRule g (r.withLists main first) rule).outcome =
          (Verdict.ofRule g r rule).outcome) := by
  constructor
  · intro hmisshapen
    have hunreadable : ¬Readable r := fun hreadable =>
      hmisshapen.elim hreadable.main hreadable.first
    obtain ⟨f, hf⟩ := exists_all_eq_error hr hunreadable
    obtain ⟨issues, allWell, hissues⟩ := exists_issues h
    have hjudge : rule.judge r g = .error f := by
      rw [hissues]
      exact judgeContainers_of_error hf _ _
    refine ⟨⟨f, hjudge⟩, ?_⟩
    simp only [Verdict.ofRule, Evaluation.ofRule, hjudge]
    rfl
  · intro hreadable
    refine ⟨judgesSingly_of_mem_containerRules h g hr hreadable, ?_⟩
    intro main first hreadable' hperm
    exact outcome_eq_of_perm h g hr hr (podNonRoot?_withLists r main first) hreadable hreadable'
      hperm

/-- A workload with the given lists of containers. -/
def serving (main first : Json) : Resource :=
  { Resource.ofKind "web" .workload with
    properties := (∅ : KeyMap Json).insert "spec"
      (.obj [("containers", main), ("initContainers", first)]) }

/-- A container that runs with all privileges, or not. -/
def running (privileged : Bool) : Json :=
  .obj [("securityContext", .obj [("privileged", .bool privileged)])]

/-- The second of two containers runs with all privileges. The first one does not hide it, and it
does not help to run it before all others. -/
theorem containerRules_judgeSingly_privileged :
    let r := serving (.arr [running false, running true]) .null
    let r' := r.withLists (some (.arr [running false])) (some (.arr [running true]))
    noPrivilegedContainers ∈ containerRules ∧ Readable r ∧ Readable r' ∧
      (Verdict.ofRule .empty r noPrivilegedContainers).outcome = .violation ∧
      (Verdict.ofRule .empty r' noPrivilegedContainers).outcome = .violation := by
  intro r r'
  have hmem : noPrivilegedContainers ∈ containerRules := by simp [containerRules]
  have hreadable : Readable r := by
    have hmain : ListsContainers r "spec.containers" [running false, running true] :=
      .items (by decide +kernel) (by simp [running])
    have hfirst : ListsContainers r "spec.initContainers" [] := .unset (by decide +kernel)
    exact ⟨not_misshapen_of_listsContainers hmain, not_misshapen_of_listsContainers hfirst⟩
  have hreadable' : Readable r' := by
    have hmain : ListsContainers r' "spec.containers" [running false] :=
      .items (by decide +kernel) (by simp [running])
    have hfirst : ListsContainers r' "spec.initContainers" [running true] :=
      .items (by decide +kernel) (by simp [running])
    exact ⟨not_misshapen_of_listsContainers hmain, not_misshapen_of_listsContainers hfirst⟩
  have hlisted : listed r' = listed r := by decide +kernel
  have hmember : running true ∈ listed r := by decide +kernel
  have halone : (Verdict.ofRule .empty (r.withContainer (running true))
      noPrivilegedContainers).outcome = .violation := by decide +kernel
  obtain ⟨hsingly, harranged⟩ :=
    (containerRules_judgeSingly (r := r) hmem rfl .empty).2 hreadable
  have hviolated := hsingly.violation_iff.2 ⟨running true, hmember, halone⟩
  have hsame := harranged _ _ hreadable' (hlisted ▸ List.Perm.refl _)
  exact ⟨hmem, hreadable, hreadable', hviolated, hsame.trans hviolated⟩

end Rules

end StackAudit
