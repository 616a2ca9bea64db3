import StackAudit.Graph
import StackAudit.Proofs.KeyMap

/-!
# Which resources are related

A graph looks relations up by positions: where an id stands, and where the resources stand that
refer to it. Together these tables say no more than the relations themselves, so that the order of
the resources decides only the order in which related ones are found.
-/
namespace StackAudit.Graph

/-- The table of positions knows every resource by its id. -/
theorem get?_positionsOf_eq_some_iff {rs : List Resource} (hn : (rs.map Resource.id).Nodup)
    (id : String) (i : Nat) :
    (positionsOf rs).get? id = some i ↔ ∃ s, rs[i]? = some s ∧ s.id = id := by
  let entries := rs.zipIdx.map fun e => (e.1.id, e.2)
  have hkeys : entries.map Prod.fst = rs.map Resource.id := by
    rw [List.map_map, ← List.zipIdx_map_fst 0 rs, List.map_map]
    simp [Function.comp_def]
  have hof : positionsOf rs = KeyMap.ofList entries := by
    rw [KeyMap.ofList, List.foldl_map]
    rfl
  rw [hof, KeyMap.get?_ofList_eq_some_iff (hkeys ▸ hn)]
  constructor
  · intro h
    obtain ⟨⟨s, j⟩, hs, heq⟩ := List.mem_map.1 h
    obtain ⟨rfl, rfl⟩ := Prod.ext_iff.1 heq
    exact ⟨s, List.mem_zipIdx_iff_getElem?.1 hs, rfl⟩
  · rintro ⟨s, hs, rfl⟩
    exact List.mem_map.2 ⟨(s, i), List.mem_zipIdx_iff_getElem?.2 hs, rfl⟩

/-- An id is looked up to the one resource that has it. -/
theorem get?_eq_some_iff {g : Graph} {id : String} {r : Resource} :
    g.get? id = some r ↔ r ∈ g.resources ∧ r.id = id := by
  simp only [get?, Option.bind_eq_some_iff, g.positions_eq, get?_positionsOf_eq_some_iff g.nodup,
    List.mem_iff_getElem?]
  constructor
  · rintro ⟨i, ⟨s, hs, hid⟩, hr⟩
    obtain rfl : s = r := Option.some.inj (hs.symm.trans hr)
    exact ⟨⟨i, hr⟩, hid⟩
  · rintro ⟨⟨i, hr⟩, hid⟩
    exact ⟨i, ⟨r, hr, hid⟩, hr⟩

/-- Noting a position under some ids adds it there and nowhere else. -/
theorem mem_foldl_noteReferrer {targets : List String} {m : KeyMap (List Nat)} {i j : Nat}
    {id : String} :
    j ∈ ((targets.foldl
        (fun m target => m.insert target ((m.get? target).getD [] ++ [i])) m).get? id).getD [] ↔
      j ∈ (m.get? id).getD [] ∨ id ∈ targets ∧ j = i := by
  induction targets generalizing m with
  | nil => simp
  | cons target targets ih =>
    rw [List.foldl_cons, ih, KeyMap.get?_insert, List.mem_cons]
    by_cases hid : id = target
    · subst hid
      simp only [if_true, Option.getD_some, List.mem_append, List.mem_singleton, true_or, true_and]
      tauto
    · rw [if_neg hid]
      simp only [hid, false_or]

/-- The table of referrers holds the positions of the resources that refer to an id. -/
theorem mem_referrersOf_iff {rs : List Resource} {id : String} {i : Nat} :
    i ∈ ((referrersOf rs).get? id).getD [] ↔
      ∃ s, rs[i]? = some s ∧ id ∈ s.relations.toList := by
  have hfold (l : List (Resource × Nat)) (m : KeyMap (List Nat)) :
      i ∈ ((l.foldl (fun m e => e.1.relations.toList.foldl
          (fun m target => m.insert target ((m.get? target).getD [] ++ [e.2])) m) m).get? id).getD
            [] ↔
        i ∈ (m.get? id).getD [] ∨ ∃ e ∈ l, id ∈ e.1.relations.toList ∧ i = e.2 := by
    induction l generalizing m with
    | nil => simp
    | cons e l ih =>
      rw [List.foldl_cons, ih, mem_foldl_noteReferrer, or_assoc]
      simp
  rw [referrersOf, hfold]
  constructor
  · rintro (h | ⟨⟨s, j⟩, hs, hid, rfl⟩)
    · exact absurd h List.not_mem_nil
    · exact ⟨s, List.mem_zipIdx_iff_getElem?.1 hs, hid⟩
  · rintro ⟨s, hs, hid⟩
    exact .inr ⟨(s, i), List.mem_zipIdx_iff_getElem?.2 hs, hid, rfl⟩

/-- Two resources are related when one of them refers to the other. -/
def areRelated (r s : Resource) : Bool :=
  r.relations.contains s.id || s.relations.contains r.id

theorem mem_relatedPositions_iff {g : Graph} {r s : Resource} {i : Nat}
    (hs : g.resources[i]? = some s) : i ∈ g.relatedPositions r ↔ areRelated r s = true := by
  rw [relatedPositions, List.mem_append, List.mem_filterMap, g.positions_eq, g.referrers_eq,
    mem_referrersOf_iff, areRelated, Bool.or_eq_true, ← KeySet.mem_toList_iff,
    ← KeySet.mem_toList_iff]
  simp only [get?_positionsOf_eq_some_iff g.nodup, hs, Option.some.injEq]
  constructor
  · rintro (⟨target, htarget, t, rfl, rfl⟩ | ⟨t, rfl, ht⟩)
    · exact .inl htarget
    · exact .inr ht
  · rintro (h | h)
    · exact .inl ⟨s.id, h, s, rfl, rfl⟩
    · exact .inr ⟨s, rfl, h⟩

/-- The related resources of a kind, told without positions. -/
theorem related_eq_filter (g : Graph) (r : Resource) (kind : ResourceKind) :
    g.related r kind = g.resources.filter fun s => areRelated r s && s.kind = kind := by
  have hmem : ∀ e ∈ g.resources.zipIdx,
      (if (g.relatedPositions r).contains e.2 ∧ e.1.kind = kind then some e.1 else none) =
        if areRelated r e.1 && e.1.kind = kind then some e.1 else none := by
    rintro ⟨s, i⟩ hs
    have hrelated := mem_relatedPositions_iff (r := r) (List.mem_zipIdx_iff_getElem?.1 hs)
    simp only [List.contains_iff_mem, hrelated, Bool.and_eq_true, decide_eq_true_eq]
  calc g.related r kind
    _ = g.resources.zipIdx.filterMap fun e =>
          if areRelated r e.1 && e.1.kind = kind then some e.1 else none :=
        List.filterMap_congr hmem
    _ = (g.resources.zipIdx.map Prod.fst).filterMap fun s =>
          if areRelated r s && s.kind = kind then some s else none := by
        rw [List.filterMap_map]
        rfl
    _ = g.resources.filter fun s => areRelated r s && s.kind = kind := by
        rw [List.zipIdx_map_fst, ← List.filterMap_eq_filter]
        rfl

/-- Every relation names one of the resources. -/
def Closed (rs : List Resource) : Prop :=
  ∀ r ∈ rs, ∀ target ∈ r.relations.toList, ∃ s ∈ rs, s.id = target

theorem firstDuplicate?_eq_none_of_nodup {rs : List Resource} {seen : KeySet}
    (hn : (rs.map Resource.id).Nodup) (hseen : ∀ r ∈ rs, seen.contains r.id = false) :
    firstDuplicate? seen rs = none := by
  induction rs generalizing seen with
  | nil => rfl
  | cons r rs ih =>
    obtain ⟨hnew, hn⟩ := List.nodup_cons.1 hn
    rw [firstDuplicate?, hseen r List.mem_cons_self, if_neg Bool.false_ne_true]
    apply ih hn
    intro s hs
    have hne : s.id ≠ r.id := fun heq => hnew (heq ▸ List.mem_map_of_mem hs)
    simp [KeySet.add, KeyMap.contains_insert, hne, hseen s (List.mem_cons_of_mem _ hs)]

/-- The table of positions knows the ids of the resources and no others. -/
theorem contains_positionsOf_iff {rs : List Resource} (hn : (rs.map Resource.id).Nodup)
    {id : String} : (positionsOf rs).contains id = true ↔ ∃ s ∈ rs, s.id = id := by
  simp only [KeyMap.contains, Option.isSome_iff_exists, get?_positionsOf_eq_some_iff hn,
    List.mem_iff_getElem?]
  constructor
  · rintro ⟨i, s, hs, rfl⟩
    exact ⟨s, ⟨i, hs⟩, rfl⟩
  · rintro ⟨s, ⟨i, hs⟩, rfl⟩
    exact ⟨i, s, hs, rfl⟩

theorem firstDangling?_eq_none_iff {rs : List Resource} (hn : (rs.map Resource.id).Nodup) :
    firstDangling? (positionsOf rs) rs = none ↔ Closed rs := by
  simp only [firstDangling?, List.findSome?_eq_none_iff, Option.map_eq_none_iff,
    List.find?_eq_none, Bool.not_eq_true', Bool.not_eq_false, contains_positionsOf_iff hn, Closed]

theorem closed_resources (g : Graph) : Closed g.resources := by
  rw [← firstDangling?_eq_none_iff g.nodup, ← g.positions_eq]
  exact g.closed

/-- The graph of a list holds the list. -/
theorem resources_of_ofResources {rs : List Resource} {g : Graph} (h : ofResources rs = .ok g) :
    g.resources = rs := by
  unfold ofResources at h
  split at h
  · contradiction
  · split at h
    · contradiction
    · exact (Except.ok.inj h) ▸ rfl

/-- A list of resources has a graph when its ids are distinct and its relations are closed. -/
theorem exists_ofResources_iff {rs : List Resource} :
    (∃ g, ofResources rs = .ok g) ↔ (rs.map Resource.id).Nodup ∧ Closed rs := by
  constructor
  · rintro ⟨g, hg⟩
    obtain rfl := resources_of_ofResources hg
    exact ⟨g.nodup, g.closed_resources⟩
  · rintro ⟨hn, hclosed⟩
    have hd : firstDuplicate? ∅ rs = none :=
      firstDuplicate?_eq_none_of_nodup hn (fun _ _ => rfl)
    have hc := (firstDangling?_eq_none_iff hn).2 hclosed
    unfold ofResources
    split
    · rename_i r hr
      rw [hd] at hr
      contradiction
    · split
      · rename_i hdangling
        rw [hc] at hdangling
        contradiction
      · exact ⟨_, rfl⟩

/-- Whether a list of resources has a graph does not depend on its order. -/
theorem exists_ofResources_of_perm {rs rs' : List Resource} (h : rs.Perm rs')
    (hg : ∃ g, ofResources rs = .ok g) : ∃ g', ofResources rs' = .ok g' := by
  obtain ⟨hn, hclosed⟩ := exists_ofResources_iff.1 hg
  refine exists_ofResources_iff.2 ⟨(h.map Resource.id).nodup_iff.1 hn, ?_⟩
  intro r hr target htarget
  obtain ⟨s, hs, hid⟩ := hclosed r (h.mem_iff.2 hr) target htarget
  exact ⟨s, h.mem_iff.1 hs, hid⟩

theorem related_perm {g g' : Graph} (h : g.resources.Perm g'.resources) (r : Resource)
    (kind : ResourceKind) : (g.related r kind).Perm (g'.related r kind) := by
  rw [related_eq_filter, related_eq_filter]
  exact h.filter _

end StackAudit.Graph
