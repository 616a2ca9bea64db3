import StackAudit.Proofs.Graph

/-!
# Which lists of resources are no graph

A list is no graph for one of two reasons, and the error tells which. An id that comes back is
noticed before any relation is followed; of the relations that lead nowhere, the error names the
least one of the first resource that has any.
-/
namespace StackAudit

namespace Graph

/-! ### Ids that come back -/

/-- The resource is the first one in the list whose id occurred before. -/
def IsFirstRepeat (rs : List Resource) (r : Resource) : Prop :=
  ∃ before after, rs = before ++ r :: after ∧ (before.map Resource.id).Nodup ∧
    r.id ∈ before.map Resource.id

/-- The ids that are already seen count as having occurred before the list. -/
theorem firstDuplicate?_eq_some_iff {rs : List Resource} {seen : KeySet} {r : Resource} :
    firstDuplicate? seen rs = some r ↔
      ∃ before after, rs = before ++ r :: after ∧ (before.map Resource.id).Nodup ∧
        (∀ s ∈ before, seen.contains s.id = false) ∧
        (seen.contains r.id = true ∨ r.id ∈ before.map Resource.id) := by
  induction rs generalizing seen with
  | nil => simp [firstDuplicate?]
  | cons s rs ih =>
    rw [firstDuplicate?]
    by_cases hs : seen.contains s.id = true
    · rw [if_pos hs, Option.some.injEq]
      constructor
      · rintro rfl
        exact ⟨[], rs, rfl, .nil, by simp, .inl hs⟩
      · rintro ⟨before, after, hsplit, -, hbefore, -⟩
        cases before with
        | nil => exact (List.cons.inj hsplit).1
        | cons s' before =>
          obtain ⟨rfl, -⟩ := List.cons.inj hsplit
          rw [hbefore s List.mem_cons_self] at hs
          cases hs
    · rw [if_neg hs, ih]
      simp only [KeySet.add, KeyMap.contains_insert, Bool.or_eq_false_iff, Bool.or_eq_true,
        decide_eq_false_iff_not, decide_eq_true_eq]
      constructor
      · rintro ⟨before, after, rfl, hnodup, hbefore, hr⟩
        have hnew : s.id ∉ before.map Resource.id := by
          rintro hmem
          obtain ⟨s', hs', hid⟩ := List.mem_map.1 hmem
          exact (hbefore s' hs').1 hid
        refine ⟨s :: before, after, rfl, List.nodup_cons.2 ⟨hnew, hnodup⟩, ?_, ?_⟩
        · exact List.forall_mem_cons.2 ⟨Bool.eq_false_iff.2 hs, fun s' hs' => (hbefore s' hs').2⟩
        · rw [List.map_cons, List.mem_cons]
          tauto
      · rintro ⟨before, after, hsplit, hnodup, hbefore, hr⟩
        cases before with
        | nil =>
          obtain ⟨rfl, -⟩ := List.cons.inj hsplit
          simp [hs] at hr
        | cons s' before =>
          obtain ⟨rfl, rfl⟩ := List.cons.inj hsplit
          obtain ⟨hnew, hnodup⟩ := List.nodup_cons.1 hnodup
          rw [List.map_cons, List.mem_cons] at hr
          refine ⟨before, after, rfl, hnodup, fun s' hs' => ⟨?_, ?_⟩, by tauto⟩
          · exact fun hid => hnew (hid ▸ List.mem_map_of_mem hs')
          · exact hbefore s' (List.mem_cons_of_mem _ hs')

theorem ofResources_eq_duplicateId_iff {rs : List Resource} {id : String} :
    ofResources rs = .error (.duplicateId id) ↔ ∃ r, IsFirstRepeat rs r ∧ r.id = id := by
  have hfirst (r : Resource) : firstDuplicate? ∅ rs = some r ↔ IsFirstRepeat rs r := by
    have hblank (k : String) : KeyMap.contains (∅ : KeySet) k = false := rfl
    simp [firstDuplicate?_eq_some_iff, IsFirstRepeat, hblank]
  simp only [← hfirst]
  unfold ofResources
  split
  · rename_i r hr
    simp [hr]
  · rename_i hnone
    split <;> simp [hnone]

/-! ### Relations that lead nowhere -/

/-- A relation of the resource names none of the list. -/
def Dangles (rs : List Resource) (r : Resource) (target : String) : Prop :=
  target ∈ r.relations.toList ∧ ∀ s ∈ rs, s.id ≠ target

/-- The resource is the first one in the list with a relation that leads nowhere, and of these
relations the target is the least one. -/
structure IsFirstDangling (rs : List Resource) (r : Resource) (target : String) : Prop where
  first : ∃ before after, rs = before ++ r :: after ∧ ∀ s ∈ before, ∀ k, ¬Dangles rs s k
  dangles : Dangles rs r target
  least : ∀ k, Dangles rs r k → target ≤ k

theorem firstDangling?_eq_some_iff {rs : List Resource} (hn : (rs.map Resource.id).Nodup)
    {source target : String} :
    firstDangling? (positionsOf rs) rs = some (source, target) ↔
      ∃ r, IsFirstDangling rs r target ∧ r.id = source := by
  have hmissing (k : String) : (!(positionsOf rs).contains k) = true ↔ ∀ s ∈ rs, s.id ≠ k := by
    rw [Bool.not_eq_true', Bool.eq_false_iff, Ne, contains_positionsOf_iff hn]
    simp
  have hleast (r : Resource) :
      (r.relations.toList.find? fun k => !(positionsOf rs).contains k).map (r.id, ·) =
          some (source, target) ↔
        (Dangles rs r target ∧ ∀ k, Dangles rs r k → target ≤ k) ∧ r.id = source := by
    simp only [Option.map_eq_some_iff, KeySet.find?_toList_eq_some_iff, hmissing, Dangles]
    constructor
    · rintro ⟨k, ⟨hmem, hk, hle⟩, heq⟩
      obtain ⟨rfl, rfl⟩ := Prod.mk.inj heq
      exact ⟨⟨⟨hmem, hk⟩, fun k' hk' => hle k' hk'.1 hk'.2⟩, rfl⟩
    · rintro ⟨⟨⟨hmem, hk⟩, hle⟩, rfl⟩
      exact ⟨target, ⟨hmem, hk, fun k' hmem' hk' => hle k' ⟨hmem', hk'⟩⟩, rfl⟩
  have hnone (r : Resource) :
      (r.relations.toList.find? fun k => !(positionsOf rs).contains k).map (r.id, ·) = none ↔
        ∀ k, ¬Dangles rs r k := by
    simp only [Option.map_eq_none_iff, List.find?_eq_none, hmissing, Dangles, not_and]
  simp only [firstDangling?, List.findSome?_eq_some_iff, hleast, hnone]
  constructor
  · rintro ⟨before, r, after, hsplit, ⟨⟨hdangles, hle⟩, rfl⟩, hbefore⟩
    exact ⟨r, ⟨⟨before, after, hsplit, hbefore⟩, hdangles, hle⟩, rfl⟩
  · rintro ⟨r, ⟨⟨before, after, hsplit, hbefore⟩, hdangles, hle⟩, rfl⟩
    exact ⟨before, r, after, hsplit, ⟨⟨hdangles, hle⟩, rfl⟩, hbefore⟩

theorem ofResources_eq_danglingRelation_iff {rs : List Resource} {source target : String} :
    ofResources rs = .error (.danglingRelation source target) ↔
      (rs.map Resource.id).Nodup ∧ ∃ r, IsFirstDangling rs r target ∧ r.id = source := by
  unfold ofResources
  split
  · rename_i r hr
    have hrepeat : ¬(rs.map Resource.id).Nodup := fun hn => by
      rw [firstDuplicate?_eq_none_of_nodup hn fun _ _ => rfl] at hr
      cases hr
    simp [hrepeat]
  · rename_i hnone
    have hn := (firstDuplicate?_eq_none hnone).1
    rw [← firstDangling?_eq_some_iff hn, and_iff_right hn]
    split
    · rename_i source' target' hdangling
      simp [hdangling]
    · rename_i hclosed
      simp [hclosed]

/-! ### Relations from both ends -/

/-- Whether resources are related does not depend on the end from which one looks, and the related
ones of a kind stand in the order of the graph, each once. -/
structure RelatesBothWays (g : Graph) : Prop where
  related_iff : ∀ r ∈ g.resources, ∀ s ∈ g.resources,
    s ∈ g.related r s.kind ↔ s.id ∈ r.relations.toList ∨ r.id ∈ s.relations.toList
  symmetric : ∀ r ∈ g.resources, ∀ s ∈ g.resources,
    s ∈ g.related r s.kind ↔ r ∈ g.related s r.kind
  kind : ∀ r kind, ∀ s ∈ g.related r kind, s.kind = kind
  declaredOrder : ∀ r kind, (g.related r kind).Sublist g.resources
  once : ∀ r kind, (g.related r kind).Nodup

theorem mem_related_iff {g : Graph} {r s : Resource} {kind : ResourceKind} :
    s ∈ g.related r kind ↔ s ∈ g.resources ∧
      (s.id ∈ r.relations.toList ∨ r.id ∈ s.relations.toList) ∧ s.kind = kind := by
  rw [related_eq_filter, List.mem_filter, Bool.and_eq_true, decide_eq_true_eq, areRelated,
    Bool.or_eq_true, ← KeySet.mem_toList_iff, ← KeySet.mem_toList_iff]

theorem relatesBothWays (g : Graph) : g.RelatesBothWays := by
  have hsublist (r : Resource) (kind : ResourceKind) : (g.related r kind).Sublist g.resources :=
    related_eq_filter g r kind ▸ List.filter_sublist
  constructor
  case related_iff =>
    intro r _ s hs
    rw [mem_related_iff, and_iff_right hs, and_iff_left rfl]
  case symmetric =>
    intro r hr s hs
    rw [mem_related_iff, mem_related_iff, and_iff_right hr, and_iff_right hs, and_iff_left rfl,
      and_iff_left rfl, or_comm]
  case kind =>
    intro r kind s hs
    exact (mem_related_iff.1 hs).2.2
  case declaredOrder => exact hsublist
  case once =>
    intro r kind
    exact (hsublist r kind).nodup (.of_map _ g.nodup)

/-- A list makes a graph exactly when its ids are distinct and its relations lead to ids in it. Else
the error names the first id that comes back, and only if there is none, the first relation that
leads nowhere. A graph shows its relations from both ends. -/
theorem ofResources_decides (rs : List Resource) :
    ((∃ g, ofResources rs = .ok g) ↔ (rs.map Resource.id).Nodup ∧ Closed rs) ∧
      (∀ id, ofResources rs = .error (.duplicateId id) ↔ ∃ r, IsFirstRepeat rs r ∧ r.id = id) ∧
      (∀ source target, ofResources rs = .error (.danglingRelation source target) ↔
        (rs.map Resource.id).Nodup ∧ ∃ r, IsFirstDangling rs r target ∧ r.id = source) ∧
      ∀ g, ofResources rs = .ok g → g.resources = rs ∧ g.RelatesBothWays :=
  ⟨exists_ofResources_iff, fun _ => ofResources_eq_duplicateId_iff,
    fun _ _ => ofResources_eq_danglingRelation_iff,
    fun g hg => ⟨resources_of_ofResources hg, g.relatesBothWays⟩⟩

/-- A workload that refers to itself and to a bucket, which refers back to it. -/
def mutualResources : List Resource :=
  [{ Resource.ofKind "web" .workload with relations := .ofList ["web", "logs"] },
   { Resource.ofKind "logs" .bucket with relations := .ofList ["web"] }]

theorem ofResources_decides_mutual :
    ∃ g, ofResources mutualResources = .ok g ∧ g.resources = mutualResources ∧
      g.RelatesBothWays := by
  obtain ⟨hgraph, -, -, hrelates⟩ := ofResources_decides mutualResources
  have hclosed : Closed mutualResources := by
    unfold Closed
    decide
  obtain ⟨g, hg⟩ := hgraph.2 ⟨by decide, hclosed⟩
  exact ⟨g, hg, hrelates g hg⟩

end Graph

end StackAudit
