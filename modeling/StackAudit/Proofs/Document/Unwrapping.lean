import Mathlib.Data.List.Forall2
import StackAudit.Document.Flatten

/-!
# The documents of containers

An object is recognized as a container by one of two collections, and its documents are taken from
one of two places. Here both are compared. The collection that makes an object a container is
unwrapped entry by entry unless the deployment is an object without a sequence of resources: then
the deployment is searched all the same, and what is listed beside it is lost.
-/
namespace StackAudit.Document

/-- The collection that makes an object a container: the resources of its deployment if they are a
sequence, and else its own. -/
def collection? (fields : List (String × Json)) : Option Json :=
  match (fields.lookup "deployment").bind (·.get? "resources") with
  | some (.arr items) => some (.arr items)
  | _ => fields.lookup "resources"

/-- The document of an entry of a mapping. An object without a name carries its key as the name;
every other entry is a document as it stands. -/
inductive EntryDocument (key : String) : Json → Json → Prop where
  | named {fields : List (String × Json)} {name : Json} (h : fields.lookup "name" = some name) :
    EntryDocument key (.obj fields) (.obj fields)
  | unnamed {fields : List (String × Json)} (h : fields.lookup "name" = none) :
    EntryDocument key (.obj fields) (.obj (fields ++ [("name", .str key)]))
  | plain {v : Json} (h : v.asObj? = none) : EntryDocument key v v

/-- The documents of a collection: one for each entry, in the order of the entries. -/
inductive Unwraps : Json → List Json → Prop where
  | sequence (items : List Json) : Unwraps (.arr items) items
  | mapping {named : List (String × Json)} {docs : List Json}
    (h : List.Forall₂ (fun e doc => EntryDocument e.1 e.2 doc) named docs) :
    Unwraps (.obj named) docs

theorem entryDocument_iff {key : String} {v doc : Json} :
    EntryDocument key v doc ↔ withName key v = doc := by
  constructor
  · rintro (h | h | h)
    · simp [withName, h]
    · simp [withName, h]
    · cases v with
      | obj fields => simp [Json.asObj?] at h
      | _ => rfl
  · rintro rfl
    cases v with
    | obj fields =>
      cases h : fields.lookup "name" with
      | none =>
        have hdoc : EntryDocument key (.obj fields) _ := .unnamed h
        simpa [withName, h] using hdoc
      | some name =>
        have hdoc : EntryDocument key (.obj fields) _ := .named h
        simpa [withName, h] using hdoc
    | _ => exact .plain rfl

/-- A collection has exactly one list of documents. -/
theorem unwraps_iff {R : Json} {docs : List Json} (h : isCollection R = true) :
    Unwraps R docs ↔ entriesOf (some R) = docs := by
  cases R with
  | arr items =>
    constructor
    · rintro ⟨⟩; rfl
    · rintro rfl; exact .sequence _
  | obj named =>
    have hmap : List.Forall₂ (fun e doc => EntryDocument e.1 e.2 doc) named docs ↔
        named.map (fun e => withName e.1 e.2) = docs := by
      simp only [entryDocument_iff]
      rw [← List.forall₂_eq_eq_eq, List.forall₂_map_left_iff]
    constructor
    · rintro ⟨⟩
      rename_i hd
      exact hmap.1 hd
    · intro hd
      exact .mapping (hmap.2 hd)
  | _ => simp [isCollection] at h

theorem flatten_of_isContainer {fields : List (String × Json)} (h : isContainer fields = true) :
    flatten (.obj fields) = entriesOf (resourcesOf? fields) := by
  simp [flatten, h]

/-- What makes an object a container is a sequence or a mapping. -/
theorem collection?_of_isContainer {fields : List (String × Json)}
    (h : isContainer fields = true) :
    ∃ R, collection? fields = some R ∧ isCollection R = true := by
  have hseen : ((fields.lookup "deployment").bind (·.get? "resources")).any isSequence = true ∨
      (fields.lookup "resources").any isCollection = true := by
    simp only [isContainer, Bool.and_eq_true, Bool.or_eq_true] at h
    exact h.2
  unfold collection?
  split
  · exact ⟨_, rfl, rfl⟩
  · rename_i hno
    rcases hseen with hd | hl
    · obtain ⟨v, hv, hs⟩ := (Option.any_eq_true _ _).1 hd
      cases v with
      | arr items => exact absurd hv (hno items)
      | _ => simp [isSequence] at hs
    · obtain ⟨v, hv, hc⟩ := (Option.any_eq_true _ _).1 hl
      exact ⟨v, hv, hc⟩

/-- When the resources that an object declares outlive the search for them. Only a deployment that
is an object can hide them: one whose resources are no sequence is searched nevertheless, so that
its own entries, or none, stand in for the declared ones. -/
def Retains (fields : List (String × Json)) (R : Json) : Prop :=
  ∀ deployment, fields.lookup "deployment" = some (.obj deployment) →
    match deployment.lookup "resources" with
    | some (.arr _) => True
    | some (.obj named) => ∃ docs, Unwraps (.obj named) docs ∧ Unwraps R docs
    | _ => Unwraps R []

/-- A container is unwrapped entry by entry exactly when its resources outlive the search. -/
theorem unwraps_flatten_iff {fields : List (String × Json)} (h : isContainer fields = true) :
    ∃ R, collection? fields = some R ∧ (Unwraps R (flatten (.obj fields)) ↔ Retains fields R) := by
  obtain ⟨R, hR, hc⟩ := collection?_of_isContainer h
  refine ⟨R, hR, ?_⟩
  rw [flatten_of_isContainer h, unwraps_iff hc]
  by_cases hd : ∃ deployment, fields.lookup "deployment" = some (.obj deployment)
  · obtain ⟨deployment, hd⟩ := hd
    have hR' : collection? fields = match deployment.lookup "resources" with
        | some (.arr items) => some (.arr items)
        | _ => fields.lookup "resources" := by
      simp [collection?, hd, Json.get?, Json.asObj?]
    have hfound : resourcesOf? fields = deployment.lookup "resources" := by
      simp [resourcesOf?, hd]
    simp only [Retains, hd, Option.some.injEq, Json.obj.injEq, forall_eq', hfound]
    split
    · rename_i items hi
      rw [hR', hi] at hR
      cases hR
      simp [hi]
    · rename_i named hn
      simp only [hn, unwraps_iff hc, unwraps_iff (R := .obj named) rfl]
      constructor
      · intro he
        exact ⟨_, rfl, he⟩
      · rintro ⟨_, hdocs, he⟩
        exact he.trans hdocs.symm
    · rename_i hno hnn
      have hnone : entriesOf (deployment.lookup "resources") = [] := by
        unfold entriesOf
        split
        · rename_i items hi
          exact absurd hi (hno items)
        · rename_i named hn
          exact absurd hn (hnn named)
        · rfl
      rw [hnone, unwraps_iff hc]
  · have hsame : resourcesOf? fields = fields.lookup "resources" := by
      unfold resourcesOf?
      split
      · rename_i deployment hdep
        exact absurd ⟨deployment, hdep⟩ hd
      · rfl
    have hR' : collection? fields = fields.lookup "resources" := by
      unfold collection?
      split
      · rename_i items hi
        obtain ⟨v, hv, hg⟩ := Option.bind_eq_some_iff.1 hi
        cases v with
        | obj deployment => exact absurd ⟨deployment, hv⟩ hd
        | _ => simp [Json.get?, Json.asObj?] at hg
      · rfl
    rw [hsame, ← hR', hR]
    exact ⟨fun _ deployment hdep => absurd ⟨deployment, hdep⟩ hd, fun _ => rfl⟩

/-- A deployment with a mapping of resources, beside a sequence of them: the mapping is unwrapped,
though only the sequence makes the object a container. -/
theorem unwraps_flatten_mapped_deployment :
    let fields : List (String × Json) :=
      [("deployment", .obj [("resources", .obj [("a", .obj [])])]),
       ("resources", .arr [.obj [("name", .str "a")]])]
    isContainer fields = true ∧
      ∃ R, collection? fields = some R ∧
        (Unwraps R (flatten (.obj fields)) ↔ Retains fields R) :=
  ⟨by decide, unwraps_flatten_iff (by decide)⟩

/-- A container whose resources are lost: an empty deployment stands beside a list of them. -/
theorem flatten_loses_listed :
    let bucket : Json := .obj [("type", .str "aws:s3/bucket:Bucket"), ("name", .str "b")]
    let fields : List (String × Json) := [("deployment", .obj []), ("resources", .arr [bucket])]
    isContainer fields = true ∧ flatten (.obj fields) = [] ∧
      ¬ ∃ R, collection? fields = some R ∧ Unwraps R (flatten (.obj fields)) := by
  intro bucket fields
  refine ⟨by decide, by decide, ?_⟩
  rintro ⟨R, hR, hu⟩
  obtain rfl : .arr [bucket] = R := Option.some.inj hR
  have hlost : [bucket] = flatten (.obj fields) := (unwraps_iff rfl).1 hu
  have hnone : flatten (.obj fields) = [] := by decide
  simp [hnone] at hlost

end StackAudit.Document
