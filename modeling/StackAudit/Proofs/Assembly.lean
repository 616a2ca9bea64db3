import StackAudit.Assembly
import StackAudit.Proofs.Except
import StackAudit.Proofs.Graph

/-!
# The order of documents

Documents are read one after the other, but what a document gives depends on no other document. What
they have in common, the ids and the owners of the aliases, does not remember the order in which it
was gathered. So a list of documents and a rearranged one make graphs of the same resources.
-/
namespace StackAudit.Assembly

variable {registry : AdapterRegistry} {unknown : UnknownKinds}

/-- What a document gives: the declared id, the document and what was made of it. -/
abbrev Entry := String × DocumentRef × Adapted

/-- What a document gives by itself. Documents of the deployment engine give nothing. -/
def readDocument (registry : AdapterRegistry) (unknown : UnknownKinds) (raw : RawDocument) :
    Except Malformed (Option Entry) := do
  match ← Declaration.ofDocument raw with
  | none => return none
  | some d => return some (d.id, d.doc, ← adapt registry unknown d)

namespace Found

/-- What is known after some more documents. -/
def extend (f : Found) (entries : List Entry) : Found where
  ids := (entries.map Prod.fst).foldl KeySet.add f.ids
  adapted := f.adapted ++ entries.map Prod.snd

/-- The ids of further documents are distinct and new. -/
def Fresh (f : Found) (entries : List Entry) : Prop :=
  (entries.map Prod.fst).Nodup ∧ ∀ e ∈ entries, f.ids.contains e.1 = false

@[simp] theorem extend_nil (f : Found) : f.extend [] = f := by simp [extend]

@[simp] theorem fresh_nil (f : Found) : f.Fresh [] := by simp [Fresh]

@[simp] theorem fresh_singleton (f : Found) (e : Entry) :
    f.Fresh [e] ↔ f.ids.contains e.1 = false := by simp [Fresh]

theorem extend_append (f : Found) (entries entries' : List Entry) :
    f.extend (entries ++ entries') = (f.extend entries).extend entries' := by
  simp [extend]

theorem fresh_append_iff {f : Found} {entries entries' : List Entry} :
    f.Fresh (entries ++ entries') ↔ f.Fresh entries ∧ (f.extend entries).Fresh entries' := by
  have hnew : (∀ e ∈ entries', (f.extend entries).ids.contains e.1 = false) ↔
      (∀ e ∈ entries', e.1 ∉ entries.map Prod.fst) ∧
        ∀ e ∈ entries', f.ids.contains e.1 = false := by
    simp only [extend, KeySet.contains_foldl_add, Bool.or_eq_false_iff, decide_eq_false_iff_not,
      ← forall_and]
  have hdisjoint : (∀ e ∈ entries', e.1 ∉ entries.map Prod.fst) ↔
      (entries.map Prod.fst).Disjoint (entries'.map Prod.fst) := by
    rw [List.disjoint_comm]
    exact (List.forall_mem_map (P := fun k => k ∉ entries.map Prod.fst)).symm
  rw [Fresh, Fresh, Fresh, hnew, hdisjoint, List.map_append, List.nodup_append',
    List.forall_mem_append]
  tauto

theorem add_of_declared {raw : RawDocument} {d : Declaration}
    (h : Declaration.ofDocument raw = .ok (some d)) (f : Found) :
    f.add registry unknown raw =
      if f.ids.contains d.id then .error (.duplicateId d.doc d.id)
      else (adapt registry unknown d).map fun a => ⟨f.ids.add d.id, f.adapted ++ [(d.doc, a)]⟩ := by
  unfold add
  rw [h]
  rfl

/-- One more document is taken when it can be read by itself and its id is new. -/
theorem add_eq_ok_iff {f f' : Found} {raw : RawDocument} :
    f.add registry unknown raw = .ok f' ↔
      ∃ e, readDocument registry unknown raw = .ok e ∧ f.Fresh e.toList ∧
        f' = f.extend e.toList := by
  unfold add readDocument
  cases Declaration.ofDocument raw with
  | error e => simp
  | ok d => cases d with
    | none => simp [pure_eq_ok_iff, @eq_comm _ f f']
    | some d =>
      by_cases hid : f.ids.contains d.id = true
      · simp [hid]
      · simp [hid, extend, @eq_comm _ f']

/-- Documents are taken when each can be read by itself and their ids are distinct and new. -/
theorem foldlM_add_eq_ok_iff {docs : List RawDocument} {f f' : Found} :
    docs.foldlM (add registry unknown) f = .ok f' ↔
      ∃ es, docs.mapM (readDocument registry unknown) = .ok es ∧ f.Fresh (es.filterMap id) ∧
        f' = f.extend (es.filterMap id) := by
  -- What the first document adds decides whether the ids of the others are still new.
  induction docs generalizing f with
  | nil => simp [pure_eq_ok_iff, @eq_comm _ f f']
  | cons raw docs ih =>
    have hcons (e : Option Entry) (es : List (Option Entry)) :
        (e :: es).filterMap id = e.toList ++ es.filterMap id := by
      cases e <;> rfl
    simp only [List.foldlM_cons, List.mapM_cons, bind_eq_ok_iff, add_eq_ok_iff, ih, pure_eq_ok_iff]
    constructor
    · rintro ⟨-, ⟨e, he, hfresh, rfl⟩, es, hes, hfresh', rfl⟩
      refine ⟨e :: es, ⟨e, he, es, hes, rfl⟩, ?_, ?_⟩
      · rw [hcons]
        exact fresh_append_iff.2 ⟨hfresh, hfresh'⟩
      · rw [hcons, extend_append]
    · rintro ⟨-, ⟨e, he, es, hes, rfl⟩, hfresh, rfl⟩
      rw [hcons] at hfresh ⊢
      obtain ⟨hfresh, hfresh'⟩ := fresh_append_iff.1 hfresh
      exact ⟨_, ⟨e, he, hfresh, rfl⟩, es, hes, hfresh', extend_append _ _ _⟩

/-- Whether two runs found the same: the same ids, and the same documents in some order. -/
def Same (f f' : Found) : Prop := f.ids = f'.ids ∧ f.adapted.Perm f'.adapted

theorem same_of_perm {docs docs' : List RawDocument} (h : docs.Perm docs') {f : Found}
    (hf : docs.foldlM (add registry unknown) {} = .ok f) :
    ∃ f', docs'.foldlM (add registry unknown) {} = .ok f' ∧ f.Same f' := by
  obtain ⟨es, hes, ⟨hn, hnew⟩, rfl⟩ := foldlM_add_eq_ok_iff.1 hf
  obtain ⟨es', hes', hperm⟩ := exists_mapM_eq_ok_of_perm h hes
  have hentries := hperm.filterMap id
  refine ⟨_, foldlM_add_eq_ok_iff.2 ⟨es', hes', ⟨?_, fun _ _ => rfl⟩, rfl⟩, ?_, ?_⟩
  · exact (hentries.map Prod.fst).nodup_iff.1 hn
  · exact KeySet.foldl_add_perm (hentries.map Prod.fst) _
  · exact (hentries.map Prod.snd).append_left _

end Found

/-- Two aliases may be noted in either order: the second owner of a name only takes it away. -/
theorem noteAlias_comm (ids : KeySet) (owners : KeyMap (Option String)) (id id' : String)
    (name name' : String) :
    noteAlias ids id' (noteAlias ids id owners name) name' =
      noteAlias ids id (noteAlias ids id' owners name') name := by
  -- A name that is an id is never noted.
  by_cases hname : ids.contains name = true
  · simp [noteAlias, hname]
  by_cases hname' : ids.contains name' = true
  · simp [noteAlias, hname']
  apply KeyMap.ext_get?
  intro k
  -- For one name the first owner does not matter, since the second one takes it away.
  by_cases heq : name' = name
  · subst heq
    by_cases howned : owners.contains name' = true
    · simp [noteAlias, hname, howned, KeyMap.contains_insert]
    · by_cases hk : k = name' <;>
        simp [noteAlias, hname, howned, KeyMap.contains_insert, KeyMap.get?_insert, hk]
  · have hne : name ≠ name' := fun h => heq h.symm
    by_cases hk : k = name
    · subst hk
      by_cases howned : owners.contains k = true <;>
        by_cases howned' : owners.contains name' = true <;>
        simp [noteAlias, *, KeyMap.contains_insert, KeyMap.get?_insert]
    · by_cases howned : owners.contains name = true <;>
        by_cases howned' : owners.contains name' = true <;>
        simp [noteAlias, *, KeyMap.contains_insert, KeyMap.get?_insert]

/-- The owners are noted one alias after the other, whichever documents they come from. -/
theorem Found.owners_eq_foldl (f : Found) :
    f.owners = (f.adapted.flatMap fun e => e.2.aliases.map (e.2.resource.id, ·)).foldl
      (fun m o => noteAlias f.ids o.1 m o.2) ∅ := by
  simp only [Found.owners, List.foldl_flatMap, List.foldl_map]

/-- The owners of the aliases do not depend on the order of the documents. -/
theorem Found.Same.owners_eq {f f' : Found} (h : f.Same f') : f.owners = f'.owners := by
  obtain ⟨hids, hadapted⟩ := h
  rw [owners_eq_foldl, owners_eq_foldl, hids]
  apply (hadapted.flatMap_right _).foldl_eq'
  intro o _ o' _ owners
  exact noteAlias_comm f'.ids owners o.1 o'.1 o.2 o'.2

end StackAudit.Assembly

namespace StackAudit.Graph

open Assembly

/-- A rearranged list of documents makes a graph whenever the list does, and one of the same
resources. -/
theorem exists_ofDocuments_of_perm {registry : AdapterRegistry} {unknown : UnknownKinds}
    {docs docs' : List RawDocument} (h : docs.Perm docs') {g : Graph}
    (hg : ofDocuments docs registry unknown = .ok g) :
    ∃ g', ofDocuments docs' registry unknown = .ok g' ∧ g.resources.Perm g'.resources := by
  simp only [ofDocuments, bind_eq_ok_iff, mapError_eq_ok_iff] at hg ⊢
  obtain ⟨f, hf, rs, hrs, hg⟩ := hg
  obtain ⟨f', hf', hsame⟩ := Found.same_of_perm h hf
  have hresource : f.resource f.owners = f'.resource f'.owners := by
    unfold Found.resource
    rw [hsame.owners_eq, hsame.1]
  rw [hresource] at hrs
  obtain ⟨rs', hrs', hperm⟩ := exists_mapM_eq_ok_of_perm hsame.2 hrs
  obtain ⟨g', hg'⟩ := exists_ofResources_of_perm hperm ⟨g, hg⟩
  refine ⟨g', ⟨f', hf', rs', hrs', hg'⟩, ?_⟩
  rw [resources_of_ofResources hg, resources_of_ofResources hg']
  exact hperm

end StackAudit.Graph
