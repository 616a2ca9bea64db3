import StackAudit.Proofs.Rules.Containers
import StackAudit.Rules.Hardening

/-!
# Users other than root

A container has to say itself that it does not run as root, or leave that open in a pod that says so.
The rule is laxer at two points: it takes a setting that is no truth value for one that was left
open, and it looks for a pod around a container that stands alone as well. So it lets some resources
pass that do not say what they have to, and these are described here.
-/
namespace StackAudit.Rules

open Json (Unset)

/-- What stands where a workload keeps the setting of its pods. -/
def podSetting? (r : Resource) : Option Json :=
  (r.property? "spec.securityContext").bind (·.get? "runAsNonRoot")

/-- The container forbids that its processes gain privileges. -/
def ForbidsEscalation (c : Json) : Prop :=
  securitySetting? c "allowPrivilegeEscalation" = some (.bool false)

/-- The container runs as a user other than root: it says so, or it leaves that open and its pod says
so. A container that stands alone has no pod. -/
def RunsAsNonRoot (r : Resource) (c : Json) : Prop :=
  securitySetting? c "runAsNonRoot" = some (.bool true) ∨
    Unset (securitySetting? c "runAsNonRoot") ∧ r.kind = .workload ∧
      podSetting? r = some (.bool true)

/-- The rule finds no fault with the user of the container. -/
def PassesAsNonRoot (r : Resource) (c : Json) : Prop :=
  securitySetting? c "runAsNonRoot" = some (.bool true) ∨
    (∀ b, securitySetting? c "runAsNonRoot" ≠ some (.bool b)) ∧ podSetting? r = some (.bool true)

/-- The container passes for one that runs as another user, though it has a setting of its own, which
is no truth value, or stands alone. -/
def Borrows (r : Resource) (c : Json) : Prop :=
  (∀ b, securitySetting? c "runAsNonRoot" ≠ some (.bool b)) ∧ podSetting? r = some (.bool true) ∧
    ¬(Unset (securitySetting? c "runAsNonRoot") ∧ r.kind = .workload)

instance (c : Json) : Decidable (ForbidsEscalation c) := inferInstanceAs (Decidable (_ = _))

instance (r : Resource) (c : Json) : Decidable (RunsAsNonRoot r c) :=
  inferInstanceAs (Decidable (_ ∨ _))

instance (r : Resource) (c : Json) : Decidable (PassesAsNonRoot r c) :=
  inferInstanceAs (Decidable (_ ∨ _))

variable {r : Resource} {c : Json} {cs : List Json}

theorem Borrows.not_runsAsNonRoot (h : Borrows r c) : ¬RunsAsNonRoot r c := by
  rintro (hown | ⟨hunset, hkind, -⟩)
  · exact h.1 true hown
  · exact h.2.2 ⟨hunset, hkind⟩

theorem passesAsNonRoot_iff : PassesAsNonRoot r c ↔ RunsAsNonRoot r c ∨ Borrows r c := by
  have hopen (h : Unset (securitySetting? c "runAsNonRoot")) (b : Bool) :
      securitySetting? c "runAsNonRoot" ≠ some (.bool b) := by
    rcases h with h | h <;> simp [h]
  constructor
  · rintro (hown | ⟨hno, hpod⟩)
    · exact .inl (.inl hown)
    · by_cases h : Unset (securitySetting? c "runAsNonRoot") ∧ r.kind = .workload
      · exact .inl (.inr ⟨h.1, h.2, hpod⟩)
      · exact .inr ⟨hno, hpod, h⟩
  · rintro ((hown | ⟨hunset, -, hpod⟩) | ⟨hno, hpod, -⟩)
    · exact .inl hown
    · exact .inr ⟨hopen hunset, hpod⟩
    · exact .inr ⟨hno, hpod⟩

theorem bind_asBool?_eq_some_iff {o : Option Json} {b : Bool} :
    o.bind Json.asBool? = some b ↔ o = some (.bool b) := by
  rcases o with _ | v
  · simp
  · cases v <;> simp [Json.asBool?]

theorem bind_asBool?_eq_none_iff {o : Option Json} :
    o.bind Json.asBool? = none ↔ ∀ b, o ≠ some (.bool b) := by
  rw [Option.eq_none_iff_forall_ne_some]
  simp only [ne_eq, bind_asBool?_eq_some_iff]

theorem podNonRoot?_eq (r : Resource) : podNonRoot? r = (podSetting? r).bind Json.asBool? := by
  rw [podNonRoot?, podSetting?, Option.bind_assoc]

theorem rootIssues_eq_nil_iff {c : ContainerSpec} :
    rootIssues (podNonRoot? r) c = [] ↔
      ForbidsEscalation c.value ∧ PassesAsNonRoot r c.value := by
  have huser : ((((securitySetting? c.value "runAsNonRoot").bind Json.asBool?).or
      (podNonRoot? r)).getD false) = true ↔ PassesAsNonRoot r c.value := by
    rw [PassesAsNonRoot, ← bind_asBool?_eq_some_iff, ← bind_asBool?_eq_some_iff,
      ← bind_asBool?_eq_none_iff, podNonRoot?_eq]
    rcases (securitySetting? c.value "runAsNonRoot").bind Json.asBool? with _ | _ | _ <;>
      rcases (podSetting? r).bind Json.asBool? with _ | _ | _ <;> simp
  rw [rootIssues]
  simp only [ContainerSpec.securityField?_eq, bind_asBool?_eq_some_iff]
  rw [List.append_eq_nil_iff, and_comm, ForbidsEscalation, ← huser]
  refine and_congr ?_ ?_ <;> split <;> simp_all

/-- What the rule really decides of a resource with containers. -/
theorem decides_passesAsNonRoot (h : HasContainers r cs) (hne : cs ≠ []) (g : Graph) :
    nonRootRequired.Decides r g (∀ c ∈ cs, ForbidsEscalation c ∧ PassesAsNonRoot r c) := by
  obtain ⟨specs, hspecs, rfl⟩ := ContainerSpec.exists_all h
  have hjudge := judgeContainers_eq hspecs (by simpa using hne) (rootIssues (podNonRoot? r))
    "all containers run as non-root without escalation"
  have hwell : (specs.flatMap (rootIssues (podNonRoot? r))).isEmpty = true ↔
      ∀ c ∈ specs.map ContainerSpec.value, ForbidsEscalation c ∧ PassesAsNonRoot r c := by
    simp only [List.isEmpty_iff, List.flatMap_eq_nil_iff, rootIssues_eq_nil_iff, List.forall_mem_map]
  refine Rule.decides_of_judge hjudge (fun hP => ?_) (fun hP => ?_)
  · rw [if_pos (hwell.2 hP)]
    rfl
  · rw [if_neg (mt hwell.1 hP)]
    rfl

/-- The rule decides whether every container of a resource forbids escalation and runs as a user
other than root, unless the verdict hangs on a borrowed setting: where a container borrows one, some
container has to break the rule all the same. -/
theorem decides_runsAsNonRoot_iff (h : HasContainers r cs) (hne : cs ≠ []) (g : Graph) :
    nonRootRequired.Decides r g (∀ c ∈ cs, ForbidsEscalation c ∧ PassesAsNonRoot r c) ∧
      (nonRootRequired.Decides r g (∀ c ∈ cs, ForbidsEscalation c ∧ RunsAsNonRoot r c) ↔
        ((∃ c ∈ cs, Borrows r c) → ∃ c ∈ cs, ¬(ForbidsEscalation c ∧ PassesAsNonRoot r c))) := by
  have hpasses := decides_passesAsNonRoot h hne g
  refine ⟨hpasses, hpasses.iff.trans ⟨?_, fun hborrow => ⟨fun hall c hc => ?_, fun hall c hc => ?_⟩⟩⟩
  · rintro hsame ⟨c, hc, hborrows⟩
    by_contra hnone
    have hall : ∀ c ∈ cs, ForbidsEscalation c ∧ PassesAsNonRoot r c := by
      intro c hc
      by_contra hbad
      exact hnone ⟨c, hc, hbad⟩
    exact hborrows.not_runsAsNonRoot (hsame.1 hall c hc).2
  · refine ⟨(hall c hc).1, (passesAsNonRoot_iff.1 (hall c hc).2).resolve_right fun hborrows => ?_⟩
    obtain ⟨c', hc', hbad⟩ := hborrow ⟨c, hc, hborrows⟩
    exact hbad (hall c' hc')
  · exact ⟨(hall c hc).1, passesAsNonRoot_iff.2 (.inl (hall c hc).2)⟩

/-- A container that forbids escalation, with a setting of its own about root or without. -/
def unprivileged (own : List (String × Json)) : Json :=
  .obj [("securityContext", .obj (("allowPrivilegeEscalation", .bool false) :: own))]

/-- A workload whose pod says that it does not run as root. -/
def nonRootPod (main first : List Json) : Resource :=
  { Resource.ofKind "web" .workload with
    properties := (∅ : KeyMap Json).insert "spec" (.obj [("containers", .arr main),
      ("initContainers", .arr first), ("securityContext", .obj [("runAsNonRoot", .bool true)])]) }

/-- One container inherits the setting of its pod, and the other says the same. -/
theorem decides_runsAsNonRoot_inherited :
    let main := [unprivileged [("runAsNonRoot", .null)]]
    let first := [unprivileged [("runAsNonRoot", .bool true)]]
    let r := nonRootPod main first
    HasContainers r (main ++ first) ∧ main ++ first ≠ [] ∧
      nonRootRequired.Decides r .empty
        (∀ c ∈ main ++ first, ForbidsEscalation c ∧ RunsAsNonRoot r c) := by
  intro main first r
  have hcs : HasContainers r (main ++ first) :=
    .listed rfl (.items (by decide +kernel) (by simp [main, unprivileged]))
      (.items (by decide +kernel) (by simp [first, unprivileged]))
  have hruns : ∀ c ∈ main ++ first, RunsAsNonRoot r c := by decide +kernel
  refine ⟨hcs, by simp [main], (decides_runsAsNonRoot_iff hcs (by simp [main]) .empty).2.2 ?_⟩
  rintro ⟨c, hc, h⟩
  exact absurd (hruns c hc) h.not_runsAsNonRoot

/-- A container alone, with a property where a workload keeps the setting of its pods. -/
def strayPod : Resource :=
  { Resource.ofKind "web" .container with
    properties := Json.canonicalFields
      [("securityContext", .obj [("allowPrivilegeEscalation", .bool false)]),
       ("spec", .obj [("securityContext", .obj [("runAsNonRoot", .bool true)])])] }

/-- A container that says `"false"` to its pod passes, and so does one without a pod. -/
theorem not_decides_runsAsNonRoot :
    (let main := [unprivileged [("runAsNonRoot", .str "false")]]
     HasContainers (nonRootPod main []) main ∧
      ¬nonRootRequired.Decides (nonRootPod main []) .empty
        (∀ c ∈ main, ForbidsEscalation c ∧ RunsAsNonRoot (nonRootPod main []) c)) ∧
    (let alone := [Json.ofKeyMap strayPod.properties]
     HasContainers strayPod alone ∧
      ¬nonRootRequired.Decides strayPod .empty
        (∀ c ∈ alone, ForbidsEscalation c ∧ RunsAsNonRoot strayPod c)) := by
  refine ⟨?_, ?_⟩
  · intro main
    have hcs : HasContainers (nonRootPod main []) main := by
      have hmain : ListsContainers (nonRootPod main []) "spec.containers" main :=
        .items (by decide +kernel) (by simp [main, unprivileged])
      have hfirst : ListsContainers (nonRootPod main []) "spec.initContainers" [] :=
        .items (by decide +kernel) (by simp)
      exact List.append_nil main ▸ .listed rfl hmain hfirst
    refine ⟨hcs, ?_⟩
    rw [(decides_passesAsNonRoot hcs (by simp [main]) .empty).iff]
    decide +kernel
  · intro alone
    have hcs : HasContainers strayPod alone := .alone rfl
    refine ⟨hcs, ?_⟩
    rw [(decides_passesAsNonRoot hcs (by simp [alone]) .empty).iff]
    decide +kernel

end StackAudit.Rules
