import StackAudit.Proofs.Adapters
import StackAudit.Proofs.Json.Spellings
import StackAudit.Proofs.Text.Lines

/-!
# Workloads without pods

A workload is taken with an empty specification of its pods where nothing is said at their place,
and an empty mapping says nothing. That is meant: the way there goes through mappings and ends where
a field is missing. But the way is given up at a value of any other form as well, and then the
workload is taken in the same manner.
-/
namespace StackAudit

open Json (Unset)

/-- Nothing but an empty mapping is said. -/
def Bare (x : Option Json) : Prop := Unset x ∨ x = some (.obj [])

/-- A path through mappings leads to an empty one, or to a field that is missing or `null`. -/
inductive Vacant : Json → List String → Prop where
  | empty : Vacant (.obj []) []
  | unset {fields : List (String × Json)} {k : String} {ks : List String}
    (h : Unset (fields.lookup k)) : Vacant (.obj fields) (k :: ks)
  | step {fields : List (String × Json)} {k : String} {ks : List String} {v : Json}
    (h : fields.lookup k = some v) (hv : Vacant v ks) : Vacant (.obj fields) (k :: ks)

/-- A path through mappings meets a value before its end that is neither a mapping nor `null`. -/
inductive Blocked : Json → List String → Prop where
  | here {v : Json} {k : String} {ks : List String} (hnull : v ≠ .null)
    (hfields : ∀ fields, v ≠ .obj fields) : Blocked v (k :: ks)
  | step {fields : List (String × Json)} {k : String} {ks : List String} {v : Json}
    (h : fields.lookup k = some v) (hv : Blocked v ks) : Blocked (.obj fields) (k :: ks)

/-- Behind the first key of a path stands the value of that field. -/
theorem foldlM_get?_cons (fields : List (String × Json)) (k : String) (ks : List String) :
    (k :: ks).foldlM Json.get? (.obj fields) =
      (fields.lookup k).bind fun v => ks.foldlM Json.get? v := rfl

/-- Behind `null` there is nothing. -/
theorem eq_null_of_foldlM_get? {ks : List String} {w : Json}
    (h : ks.foldlM Json.get? .null = some w) : w = .null := by
  cases ks with
  | nil => exact (Option.some.inj h).symm
  | cons k ks => cases h

theorem Blocked.ne_null {v : Json} {ks : List String} (h : Blocked v ks) : v ≠ .null := by
  rintro rfl
  cases h with
  | here hnull _ => exact hnull rfl

theorem vacant_cons_iff {fields : List (String × Json)} {k : String} {ks : List String} :
    Vacant (.obj fields) (k :: ks) ↔
      Unset (fields.lookup k) ∨ ∃ v, fields.lookup k = some v ∧ Vacant v ks := by
  constructor
  · intro h
    cases h with
    | unset h => exact .inl h
    | step h hv => exact .inr ⟨_, h, hv⟩
  · rintro (h | ⟨v, h, hv⟩)
    · exact .unset h
    · exact .step h hv

theorem blocked_cons_iff {fields : List (String × Json)} {k : String} {ks : List String} :
    Blocked (.obj fields) (k :: ks) ↔ ∃ v, fields.lookup k = some v ∧ Blocked v ks := by
  constructor
  · intro h
    cases h with
    | here _ hfields => exact absurd rfl (hfields fields)
    | step h hv => exact ⟨_, h, hv⟩
  · rintro ⟨v, h, hv⟩
    exact .step h hv

/-- A vacant path is not given up on the way. -/
theorem Vacant.not_blocked {v : Json} {ks : List String} (h : Vacant v ks) : ¬Blocked v ks := by
  induction h with
  | empty =>
    intro hblocked
    cases hblocked
  | unset h =>
    rw [blocked_cons_iff]
    rintro ⟨v, hv, hblocked⟩
    rw [hv] at h
    rcases h with h | h
    · cases h
    · exact hblocked.ne_null (Option.some.inj h)
  | step h _ ih =>
    rw [blocked_cons_iff]
    rintro ⟨v, hv, hblocked⟩
    rw [h] at hv
    cases hv
    exact ih hblocked

/-- On a vacant path there is nothing but mappings and `null`. -/
theorem Vacant.node {v : Json} {ks : List String} (h : Vacant v ks) {front : List String}
    (hfront : front <+: ks) {w : Json} (hw : front.foldlM Json.get? v = some w) :
    w = .null ∨ ∃ fields, w = .obj fields := by
  induction h generalizing front with
  | empty =>
    obtain rfl := List.prefix_nil.1 hfront
    exact .inr ⟨[], (Option.some.inj hw).symm⟩
  | @unset fields k ks h =>
    obtain rfl | ⟨rest, rfl, -⟩ := List.prefix_cons_iff.1 hfront
    · exact .inr ⟨fields, (Option.some.inj hw).symm⟩
    · rw [foldlM_get?_cons, Option.bind_eq_some_iff] at hw
      obtain ⟨v, hv, hw⟩ := hw
      rw [hv] at h
      rcases h with h | h
      · cases h
      · cases h
        exact .inl (eq_null_of_foldlM_get? hw)
  | @step fields k ks v h _ ih =>
    obtain rfl | ⟨rest, rfl, hrest⟩ := List.prefix_cons_iff.1 hfront
    · exact .inr ⟨fields, (Option.some.inj hw).symm⟩
    · rw [foldlM_get?_cons, h] at hw
      exact ih hrest hw

/-- Following a path comes to nothing but an empty mapping where the path is vacant, and where it
is blocked. -/
theorem bare_foldlM_get?_iff {v : Json} {ks : List String} (hv : v ≠ .null) :
    Bare (ks.foldlM Json.get? v) ↔ Vacant v ks ∨ Blocked v ks := by
  induction ks generalizing v with
  | nil =>
    have hwhole : Bare (some v) ↔ v = .obj [] := by simp [Bare, Unset, hv]
    refine hwhole.trans ?_
    constructor
    · rintro rfl
      exact .inl .empty
    · rintro (h | h)
      · cases h
        rfl
      · cases h
  | cons k ks ih =>
    cases v with
    | null => exact absurd rfl hv
    | obj fields =>
      rw [foldlM_get?_cons, vacant_cons_iff, blocked_cons_iff]
      cases hk : fields.lookup k with
      | none => simp [Bare, Unset]
      | some w =>
        by_cases hnull : w = .null
        · subst hnull
          have hbare : Bare (ks.foldlM Json.get? .null) := by
            cases ks with
            | nil => exact .inl (.inr rfl)
            | cons k ks => exact .inl (.inl rfl)
          exact iff_of_true hbare (.inl (.inl (.inr rfl)))
        · simp [Unset, hnull, ih hnull]
    | _ =>
      refine iff_of_true (.inl (.inl rfl)) (.inr (.here hv ?_))
      intro fields hfields
      cases hfields

namespace Adapters

variable {d : Declaration} {path : String}

/-- The properties are a mapping, and so are their metadata as far as they say anything. -/
def AcceptsMetadata (d : Declaration) : Prop :=
  ∃ fields, d.properties = .obj fields ∧
    (Unset (fields.lookup "metadata") ∨ ∃ m, fields.lookup "metadata" = some (.obj m))

/-- A workload is taken, with an empty specification of its pods. -/
def StoresNoPods (d : Declaration) : Prop :=
  ∃ a, workload d = .ok a ∧ a.resource.properties.get? "spec" = some (.obj [])

/-- Every type has one place for the specification of its pods. -/
theorem podPath_of_mem (h : (d.typeToken, path) ∈ workloadTokens) :
    podPath d.typeToken = path := by
  have hall : ∀ e ∈ workloadTokens, podPath e.1 = e.2 := by decide
  exact hall _ h

theorem podSpec_eq_empty_iff :
    podSpec d = .ok (.obj []) ↔ Bare (descend d.properties (podPath d.typeToken)) := by
  rw [podSpec]
  cases descend d.properties (podPath d.typeToken) with
  | none => simp [Bare, Unset]
  | some v => cases v <;> simp [Bare, Unset]

theorem exists_fields_of_podSpec {spec : Json} (h : podSpec d = .ok spec) :
    ∃ fields, spec = .obj fields := by
  rw [podSpec] at h
  split at h
  · exact ⟨[], (Except.ok.inj h).symm⟩
  · exact ⟨[], (Except.ok.inj h).symm⟩
  · exact ⟨_, (Except.ok.inj h).symm⟩
  · cases h

theorem canonical_eq_empty_iff {fields : List (String × Json)} :
    (Json.obj fields).canonical = .obj [] ↔ fields = [] := by
  constructor
  · intro h
    cases fields with
    | nil => rfl
    | cons e rest =>
      -- The first key is still there in canonical form.
      obtain ⟨k, v⟩ := e
      have hget := Json.get?_canonical (.obj ((k, v) :: rest)) k
      rw [h] at hget
      simp [Json.get?, Json.asObj?] at hget
  · rintro rfl
    rfl

/-- The resource of a workload keeps the metadata and the specification of the pods. -/
def workloadResource (d : Declaration) (spec : Json) : Resource :=
  d.toResource .workload (Json.canonicalFields
    [("metadata", (d.properties.get? "metadata").getD .null), ("spec", spec)])

theorem workload_of_acceptsMetadata (h : AcceptsMetadata d) :
    workload d = (podSpec d).map fun spec => { resource := workloadResource d spec } := by
  obtain ⟨fields, hfields, hmetadata⟩ := h
  have hget : d.properties.get? "metadata" = fields.lookup "metadata" := by
    rw [hfields]
    rfl
  rw [workload, fields_eq_ok_iff.2 hfields, ok_bind]
  unfold workloadResource
  rw [hget]
  rcases hmetadata with (h | h) | ⟨m, h⟩
  · rw [h]
    rfl
  · rw [h]
    rfl
  · rw [h]
    rfl

theorem acceptsMetadata_of_workload {a : Adapted} (h : workload d = .ok a) :
    AcceptsMetadata d := by
  obtain ⟨fields, hfields, h⟩ := bind_eq_ok_iff.1 h
  refine ⟨fields, fields_eq_ok_iff.1 hfields, ?_⟩
  cases hmetadata : fields.lookup "metadata" with
  | none => exact .inl (.inl rfl)
  | some v =>
    rw [hmetadata] at h
    cases v with
    | null => exact .inl (.inr rfl)
    | obj m => exact .inr ⟨m, rfl⟩
    | _ => cases h

/-- The pods are missing from what is stored when nothing is said at their place. -/
theorem storesNoPods_iff : StoresNoPods d ↔
    AcceptsMetadata d ∧ Bare (descend d.properties (podPath d.typeToken)) := by
  rw [← podSpec_eq_empty_iff]
  have hspec (spec : Json) :
      (workloadResource d spec).properties.get? "spec" = some spec.canonical :=
    Json.get?_canonicalFields _ _
  constructor
  · rintro ⟨a, ha, hempty⟩
    have hmetadata := acceptsMetadata_of_workload ha
    rw [workload_of_acceptsMetadata hmetadata] at ha
    obtain ⟨spec, hpods, rfl⟩ := map_eq_ok_iff.1 ha
    obtain ⟨fields, rfl⟩ := exists_fields_of_podSpec hpods
    have hcanonical : (Json.obj fields).canonical = .obj [] :=
      Option.some.inj ((hspec _).symm.trans hempty)
    rw [canonical_eq_empty_iff.1 hcanonical] at hpods
    exact ⟨hmetadata, hpods⟩
  · rintro ⟨hmetadata, hpods⟩
    rw [StoresNoPods, workload_of_acceptsMetadata hmetadata, hpods]
    exact ⟨_, rfl, hspec _⟩

/-- A workload is stored without pods where the path to them is vacant, and where it is blocked. The
first is so whenever the second is not, and then there is nothing on the path but mappings and
`null`. -/
theorem storesNoPods_vacant_iff (h : (d.typeToken, path) ∈ workloadTokens) :
    (StoresNoPods d ↔ AcceptsMetadata d ∧
      (Vacant d.properties (Text.pieces '.' path) ∨ Blocked d.properties (Text.pieces '.' path))) ∧
    ((StoresNoPods d → Vacant d.properties (Text.pieces '.' path) ∧
        ∀ front, front <+: Text.pieces '.' path → ∀ v,
          front.foldlM Json.get? d.properties = some v → v = .null ∨ ∃ fields, v = .obj fields) ↔
      ¬(AcceptsMetadata d ∧ Blocked d.properties (Text.pieces '.' path))) := by
  have hstores : StoresNoPods d ↔ AcceptsMetadata d ∧ (Vacant d.properties (Text.pieces '.' path) ∨
      Blocked d.properties (Text.pieces '.' path)) := by
    rw [storesNoPods_iff, podPath_of_mem h]
    refine and_congr_right fun haccepts => bare_foldlM_get?_iff ?_
    obtain ⟨fields, hfields, -⟩ := haccepts
    rw [hfields]
    exact Json.noConfusion
  refine ⟨hstores, ?_, ?_⟩
  · rintro himp ⟨haccepts, hblocked⟩
    exact (himp (hstores.2 ⟨haccepts, .inr hblocked⟩)).1.not_blocked hblocked
  · intro hblocked hno
    obtain ⟨haccepts, hvacant | hblocks⟩ := hstores.1 hno
    · exact ⟨hvacant, fun front hfront v hv => hvacant.node hfront hv⟩
    · exact absurd ⟨haccepts, hblocks⟩ hblocked

/-- A deployment with the given specification. -/
def deployment (spec : Json) : Declaration where
  doc := ⟨.here, 0, some "web"⟩
  typeToken := "apps/v1/Deployment"
  id := "web"
  properties := .obj [("metadata", .obj [("name", .str "web")]), ("spec", spec)]
  physicalId := none
  outputs := .obj []

/-- A deployment whose template is not filled in yet. -/
def draft : Declaration := deployment (.obj [("paused", .bool true), ("template", .null)])

theorem pieces_deploymentPath :
    Text.pieces '.' "spec.template.spec" = ["spec", "template", "spec"] := by decide +kernel

theorem storesNoPods_vacant_draft : StoresNoPods draft ∧
    Vacant draft.properties (Text.pieces '.' "spec.template.spec") ∧
    ∀ v, draft.properties.get? "spec" = some v → v = .null ∨ ∃ fields, v = .obj fields := by
  have hmem : (draft.typeToken, "spec.template.spec") ∈ workloadTokens := by decide
  have haccepts : AcceptsMetadata draft := ⟨_, rfl, .inr ⟨_, rfl⟩⟩
  have hvacant : Vacant draft.properties (Text.pieces '.' "spec.template.spec") := by
    rw [pieces_deploymentPath]
    exact .step rfl (.unset (.inr rfl))
  obtain ⟨hstores, hexact⟩ := storesNoPods_vacant_iff hmem
  have hno : StoresNoPods draft := hstores.2 ⟨haccepts, .inl hvacant⟩
  obtain ⟨-, hnodes⟩ := hexact.2 (fun h => hvacant.not_blocked h.2) hno
  have hfront : ["spec"] <+: Text.pieces '.' "spec.template.spec" := by
    rw [pieces_deploymentPath]
    exact List.prefix_append _ _
  exact ⟨hno, hvacant, hnodes ["spec"] hfront⟩

/-- A text in the place of the specification is taken as well. -/
theorem not_storesNoPods_vacant_text :
    (("apps/v1/Deployment", "spec.template.spec") : String × String) ∈ workloadTokens ∧
      StoresNoPods (deployment (.str "oops")) ∧
      ¬Vacant (deployment (.str "oops")).properties (Text.pieces '.' "spec.template.spec") ∧
      ["spec"].foldlM Json.get? (deployment (.str "oops")).properties = some (.str "oops") := by
  have hstores : ∃ a, workload (deployment (.str "oops")) = .ok a ∧
      a.resource.properties.get? "spec" = some (.obj []) :=
    exists_eq_ok_of_map (by decide +kernel)
  refine ⟨by decide, hstores, ?_, rfl⟩
  · rw [pieces_deploymentPath]
    intro h
    refine h.not_blocked (.step rfl (.here ?_ ?_))
    · exact Json.noConfusion
    · exact fun _ => Json.noConfusion

end Adapters

end StackAudit
