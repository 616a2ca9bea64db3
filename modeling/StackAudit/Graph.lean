import StackAudit.Resource

/-!
# Resource graphs

The resources of one stack in declared order. Ids are distinct and every relation names a resource
of the graph; both are checked once, when the graph is built. The graph keeps where each id stands
and which resources refer to it, so that relations are seen from both ends.
-/
namespace StackAudit

/-- Why a list of resources is no graph. -/
inductive GraphError where
  /-- An id occurs a second time. -/
  | duplicateId (id : String)
  /-- A relation names no resource. -/
  | danglingRelation (source target : String)
deriving DecidableEq

/-- The text of an error. -/
def GraphError.message : GraphError → String
  | .duplicateId id => s!"duplicate resource id '{id}'"
  | .danglingRelation source target =>
    s!"resource '{source}' refers to unknown resource '{target}'"

namespace Graph

/-- Where each id stands in a list of resources. -/
def positionsOf (rs : List Resource) : KeyMap Nat :=
  rs.zipIdx.foldl (fun m e => m.insert e.1.id e.2) ∅

/-- The positions of the resources that refer to each id. -/
def referrersOf (rs : List Resource) : KeyMap (List Nat) :=
  rs.zipIdx.foldl
    (fun m e => e.1.relations.toList.foldl
      (fun m target => m.insert target ((m.get? target).getD [] ++ [e.2])) m) ∅

/-- The first resource whose id is among the given ones or occurred before. -/
def firstDuplicate? (seen : KeySet) : List Resource → Option Resource
  | [] => none
  | r :: rs => if seen.contains r.id then some r else firstDuplicate? (seen.add r.id) rs

/-- The first relation that leads nowhere, as source and target. -/
def firstDangling? (positions : KeyMap Nat) (rs : List Resource) : Option (String × String) :=
  rs.findSome? fun r =>
    (r.relations.toList.find? fun target => !positions.contains target).map (r.id, ·)

theorem firstDuplicate?_eq_none {seen : KeySet} {rs : List Resource}
    (h : firstDuplicate? seen rs = none) :
    (rs.map Resource.id).Nodup ∧ ∀ r ∈ rs, seen.contains r.id = false := by
  induction rs generalizing seen with
  | nil => simp
  | cons r rs ih =>
    simp only [firstDuplicate?] at h
    split at h
    · contradiction
    · rename_i hr
      obtain ⟨hn, hs⟩ := ih h
      have key (s : Resource) (hm : s ∈ rs) : s.id ≠ r.id ∧ seen.contains s.id = false := by
        have := hs s hm
        simp only [KeyMap.contains, KeySet.add, KeyMap.get?_insert] at this ⊢
        split at this
        · simp at this
        · rename_i hne
          exact ⟨hne, this⟩
      refine ⟨List.nodup_cons.2 ⟨fun hm => ?_, hn⟩, fun s hm => ?_⟩
      · obtain ⟨s, hs', he⟩ := List.mem_map.1 hm
        exact (key s hs').1 he
      · rcases List.mem_cons.1 hm with rfl | hm
        · simpa using hr
        · exact (key s hm).2

end Graph

/-- A list of resources with distinct ids and closed relations. -/
structure Graph where
  /-- The resources, in declared order. -/
  resources : List Resource
  /-- Where each id stands. -/
  positions : KeyMap Nat
  /-- The positions of the resources that refer to each id. -/
  referrers : KeyMap (List Nat)
  /-- The positions are those of the resources. -/
  positions_eq : positions = Graph.positionsOf resources
  /-- The referrers are those of the resources. -/
  referrers_eq : referrers = Graph.referrersOf resources
  /-- No id occurs twice. -/
  nodup : (resources.map Resource.id).Nodup
  /-- No relation leads nowhere. -/
  closed : Graph.firstDangling? positions resources = none

namespace Graph

/-- The graph of a list of resources. A repeated id is reported before any dangling relation. -/
def ofResources (rs : List Resource) : Except GraphError Graph :=
  match hd : firstDuplicate? ∅ rs with
  | some r => .error (.duplicateId r.id)
  | none =>
    match hc : firstDangling? (positionsOf rs) rs with
    | some (source, target) => .error (.danglingRelation source target)
    | none => .ok
      { resources := rs
        positions := positionsOf rs
        referrers := referrersOf rs
        positions_eq := rfl
        referrers_eq := rfl
        nodup := (firstDuplicate?_eq_none hd).1
        closed := hc }

/-- The graph of resources that are known to have one. -/
def ofClosed (rs : List Resource) (hn : (rs.map Resource.id).Nodup)
    (hclosed : firstDangling? (positionsOf rs) rs = none) : Graph where
  resources := rs
  positions := positionsOf rs
  referrers := referrersOf rs
  positions_eq := rfl
  referrers_eq := rfl
  nodup := hn
  closed := hclosed

/-- The graph without resources. -/
def empty : Graph where
  resources := []
  positions := positionsOf []
  referrers := referrersOf []
  positions_eq := rfl
  referrers_eq := rfl
  nodup := .nil
  closed := rfl

instance : Inhabited Graph := ⟨empty⟩

/-- The number of resources. -/
def size (g : Graph) : Nat := g.resources.length

/-- The resource with the given id. -/
def get? (g : Graph) (id : String) : Option Resource :=
  (g.positions.get? id).bind (g.resources[·]?)

/-- The resources of a kind, in declared order. -/
def ofKind (g : Graph) (kind : ResourceKind) : List Resource :=
  g.resources.filter (·.kind = kind)

/-- The positions of the resources related to a resource in either direction. -/
def relatedPositions (g : Graph) (r : Resource) : List Nat :=
  r.relations.toList.filterMap g.positions.get? ++ (g.referrers.get? r.id).getD []

/-- The resources of a kind that are related to a resource in either direction, each once and in
declared order. -/
def related (g : Graph) (r : Resource) (kind : ResourceKind) : List Resource :=
  let hits := g.relatedPositions r
  g.resources.zipIdx.filterMap fun (s, i) =>
    if hits.contains i ∧ s.kind = kind then some s else none

end Graph

end StackAudit
