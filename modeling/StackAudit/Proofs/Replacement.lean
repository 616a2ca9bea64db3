import StackAudit.Proofs.Resolution
import StackAudit.Proofs.Retyping

/-!
# A document in the place of another

When two documents declare the same resource, and the adapters make the same of it but for the type
token, then one may stand for the other in any list of documents. The errors stay the same, and so
does the graph but for that token.
-/
namespace StackAudit

/-- What an adapter made, under another type token if the resource has the given id. -/
def Adapted.retype (id token : String) (a : Adapted) : Adapted :=
  { a with resource := a.resource.retype id token }

namespace Assembly

variable {registry : AdapterRegistry} {unknown : UnknownKinds}

namespace Found

/-- What was found, with another type token on the resource with the given id. -/
def retype (id token : String) (f : Found) : Found :=
  { f with adapted := f.adapted.map fun e => (e.1, e.2.retype id token) }

/-- What was found, with earlier findings in front. -/
def behind (earlier : List (DocumentRef × Adapted)) (f : Found) : Found :=
  { f with adapted := earlier ++ f.adapted }

/-- Earlier findings are only carried along: for a new document only the ids matter. -/
theorem add_behind (earlier : List (DocumentRef × Adapted)) (f : Found) (raw : RawDocument) :
    (f.behind earlier).add registry unknown raw =
      (f.add registry unknown raw).map (behind earlier) := by
  cases hd : Declaration.ofDocument raw with
  | error e =>
    unfold add
    rw [hd]
    rfl
  | ok d =>
    cases d with
    | none =>
      unfold add
      rw [hd]
      rfl
    | some d =>
      rw [add_of_declared hd, add_of_declared hd]
      by_cases hid : f.ids.contains d.id = true
      · rw [if_pos hid, if_pos (show (f.behind earlier).ids.contains d.id = true from hid)]
        rfl
      · rw [if_neg hid, if_neg (show ¬(f.behind earlier).ids.contains d.id = true from hid)]
        cases adapt registry unknown d with
        | error e => rfl
        | ok a => simp [Except.map, behind]

theorem foldlM_add_carried (docs : List RawDocument) (ids : KeySet)
    (earlier : List (DocumentRef × Adapted)) :
    docs.foldlM (add registry unknown) ⟨ids, earlier⟩ =
      (docs.foldlM (add registry unknown) ⟨ids, []⟩).map (behind earlier) := by
  rw [← foldlM_map (add_behind earlier), behind, List.append_nil]

/-- A run over documents one of which is known to declare something. -/
theorem foldlM_add_of_declared {raw : RawDocument} {d : Declaration}
    (h : Declaration.ofDocument raw = .ok (some d)) (before after : List RawDocument) :
    (before ++ raw :: after).foldlM (add registry unknown) {} =
      before.foldlM (add registry unknown) {} >>= fun f =>
        if f.ids.contains d.id then .error (.duplicateId d.doc d.id)
        else adapt registry unknown d >>= fun a =>
          (after.foldlM (add registry unknown) ⟨f.ids.add d.id, []⟩).map
            (behind (f.adapted ++ [(d.doc, a)])) := by
  rw [List.foldlM_append]
  congr 1
  funext f
  rw [List.foldlM_cons, add_of_declared h]
  by_cases hid : f.ids.contains d.id = true
  · simp only [if_pos hid]
    rfl
  · simp only [if_neg hid]
    cases adapt registry unknown d with
    | error e => rfl
    | ok a => exact foldlM_add_carried after (f.ids.add d.id) (f.adapted ++ [(d.doc, a)])

variable (f : Found) (id token : String)

theorem resourceIds_retype : (f.retype id token).resourceIds = f.resourceIds := by
  simp [resourceIds, retype, Adapted.retype, Function.comp_def]

theorem holders_retype (name : String) : (f.retype id token).holders name = f.holders name := by
  simp [holders, retype, Adapted.retype, Function.comp_def, List.filter_map]

theorem named?_retype (k : String) : (f.retype id token).named? k = f.named? k := by
  rw [named?, named?, resourceIds_retype, holders_retype]

theorem dangling_retype : (f.retype id token).dangling = f.dangling := by
  have hdangles : (f.retype id token).dangles = f.dangles := by
    funext reference
    rw [dangles, dangles, named?_retype]
  have hof (e : DocumentRef × Adapted) :
      (f.retype id token).danglingOf (e.1, e.2.retype id token) = f.danglingOf e := by
    rw [danglingOf, hdangles]
    rfl
  rw [dangling, retype, List.flatMap_map]
  exact List.flatMap_congr fun e _ => hof e

theorem resolved_retype (e : DocumentRef × Adapted) :
    (f.retype id token).resolved (e.1, e.2.retype id token) =
      (f.resolved e).retype id token := by
  have htargets : (f.retype id token).targetsOf (e.1, e.2.retype id token) = f.targetsOf e := by
    simp only [targetsOf, named?_retype, Adapted.retype, Resource.id_retype]
  have hid : (f.resolved e).id = e.2.resource.id := rfl
  unfold resolved at hid ⊢
  rw [htargets]
  by_cases h : e.2.resource.id = id <;> simp [Adapted.retype, Resource.retype, h]

/-- Where ids are distinct, one resource alone gets the other type token. -/
theorem retype_behind_of_nodup {earlier : List (DocumentRef × Adapted)} {doc : DocumentRef}
    {a : Adapted} (h : (f.behind (earlier ++ [(doc, a)])).resourceIds.Nodup) :
    (f.behind (earlier ++ [(doc, a)])).retype a.resource.id token =
      f.behind (earlier ++ [(doc, a.retype a.resource.id token)]) := by
  have hself {l : List (DocumentRef × Adapted)} (hl : ∀ e ∈ l, e.2.resource.id ≠ a.resource.id) :
      l.map (fun e => (e.1, e.2.retype a.resource.id token)) = l := by
    refine (List.map_congr_left fun e he => ?_).trans l.map_id
    simp [Adapted.retype, Resource.retype, hl e he]
  simp only [resourceIds, behind, List.append_assoc, List.singleton_append, List.map_append,
    List.map_cons, List.nodup_append, List.nodup_cons, List.mem_map, List.mem_cons, not_exists,
    not_and] at h
  obtain ⟨-, ⟨hlater, -⟩, hearlier⟩ := h
  have hbefore := hself fun e he => hearlier _ ⟨e, he, rfl⟩ _ (.inl rfl)
  simp only [retype, behind, List.append_assoc, List.singleton_append, List.map_append,
    List.map_cons, hbefore, hself hlater]

end Found

/-- A document is taken in the place of another one that declares the same. -/
theorem Found.foldlM_add_replace {raw raw' : RawDocument} {d d' : Declaration} {token : String}
    (hd : Declaration.ofDocument raw = .ok (some d))
    (hd' : Declaration.ofDocument raw' = .ok (some d')) (hid : d'.id = d.id) (hdoc : d'.doc = d.doc)
    (hadapt : adapt .builtin unknown d' = (adapt .builtin unknown d).map (.retype d.id token))
    (before after : List RawDocument) :
    (before ++ raw' :: after).foldlM (add .builtin unknown) {} =
      ((before ++ raw :: after).foldlM (add .builtin unknown) {}).map (retype d.id token) := by
  have hnodup (found : Found) (h : (before ++ raw :: after).foldlM (add .builtin unknown) {} =
      .ok found) : found.resourceIds.Nodup := (sound_of_foldlM_add h).nodup_ids
  rw [foldlM_add_of_declared hd] at hnodup ⊢
  rw [foldlM_add_of_declared hd', hid, hdoc, hadapt]
  cases hbefore : before.foldlM (add .builtin unknown) {} with
  | error e => rfl
  | ok f =>
    rw [hbefore, ok_bind] at hnodup
    rw [ok_bind, ok_bind]
    by_cases htaken : f.ids.contains d.id = true
    · rw [if_pos htaken, if_pos htaken]
      rfl
    · rw [if_neg htaken] at hnodup
      rw [if_neg htaken, if_neg htaken]
      cases ha : adapt .builtin unknown d with
      | error e => rfl
      | ok a =>
        rw [ha, ok_bind] at hnodup
        rw [← id_of_adapt_builtin ha] at hnodup ⊢
        rw [ok_bind]
        cases hlater : after.foldlM (add .builtin unknown) ⟨f.ids.add a.resource.id, []⟩ with
        | error e => rfl
        | ok later =>
          rw [hlater] at hnodup
          have hretype := later.retype_behind_of_nodup token (hnodup _ rfl)
          exact congrArg Except.ok hretype.symm

end Assembly

namespace Graph

open Assembly

variable {unknown : UnknownKinds}

/-- Findings that agree but for a type token make graphs that do, and fail alike. -/
theorem ofDocuments_of_retype {docs docs' : List RawDocument} {id token : String}
    (h : docs'.foldlM (Found.add .builtin unknown) {} =
      (docs.foldlM (Found.add .builtin unknown) {}).map (.retype id token)) :
    ofDocuments docs' .builtin unknown =
      (ofDocuments docs .builtin unknown).map (retype id token) := by
  cases hf : docs.foldlM (Found.add .builtin unknown) {} with
  | error e =>
    rw [hf] at h
    rw [ofDocuments, ofDocuments, hf, h]
    rfl
  | ok f =>
    rw [hf] at h
    cases hd : f.dangling with
    | cons x r =>
      have hd' := (f.dangling_retype id token).trans hd
      rw [ofDocuments_of_dangling hf hd, ofDocuments_of_dangling h hd']
      rfl
    | nil =>
      have hd' := (f.dangling_retype id token).trans hd
      obtain ⟨g, hg, hresources⟩ := ofDocuments_of_not_dangling hf hd
      obtain ⟨g', hg', hresources'⟩ := ofDocuments_of_not_dangling h hd'
      rw [hg, hg']
      refine congrArg Except.ok (eq_of_resources ?_)
      rw [hresources', resources_retype, hresources, Found.retype, List.map_map, List.map_map]
      exact List.map_congr_left fun e _ => f.resolved_retype id token e

/-- In any list of documents, one document may stand for another that declares the same resource and
of which the adapters make the same but for the type token. -/
theorem ofDocuments_replace {raw raw' : RawDocument} {d d' : Declaration} {token : String}
    (hd : Declaration.ofDocument raw = .ok (some d))
    (hd' : Declaration.ofDocument raw' = .ok (some d')) (hid : d'.id = d.id) (hdoc : d'.doc = d.doc)
    (hadapt : adapt .builtin unknown d' = (adapt .builtin unknown d).map (.retype d.id token))
    (before after : List RawDocument) :
    ofDocuments (before ++ raw' :: after) .builtin unknown =
      (ofDocuments (before ++ raw :: after) .builtin unknown).map (retype d.id token) :=
  ofDocuments_of_retype (Found.foldlM_add_replace hd hd' hid hdoc hadapt before after)

end Graph

end StackAudit
