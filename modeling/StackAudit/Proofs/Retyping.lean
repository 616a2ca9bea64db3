import StackAudit.Proofs.Graph
import StackAudit.Proofs.Policy

/-!
# Type tokens and the report

The type token of a resource decides how its declaration is adapted. From then on it is only carried
along: no built-in rule reads it, and no relation depends on it. So a graph in which one resource
has another type token gets the same report.
-/
namespace StackAudit

namespace Resource

/-- The resource, under another type token if it has the given id. -/
def retype (id token : String) (r : Resource) : Resource :=
  if r.id = id then { r with typeToken := token } else r

variable (id token : String) (r : Resource)

/-- At most the type token changes. -/
theorem exists_retype_eq : ∃ t, r.retype id token = { r with typeToken := t } := by
  unfold retype
  split
  · exact ⟨token, rfl⟩
  · exact ⟨r.typeToken, rfl⟩

@[simp] theorem id_retype : (r.retype id token).id = r.id := by
  obtain ⟨t, ht⟩ := exists_retype_eq id token r
  rw [ht]

@[simp] theorem kind_retype : (r.retype id token).kind = r.kind := by
  obtain ⟨t, ht⟩ := exists_retype_eq id token r
  rw [ht]

@[simp] theorem relations_retype : (r.retype id token).relations = r.relations := by
  obtain ⟨t, ht⟩ := exists_retype_eq id token r
  rw [ht]

@[simp] theorem location_retype : (r.retype id token).location = r.location := by
  obtain ⟨t, ht⟩ := exists_retype_eq id token r
  rw [ht]

theorem map_id_retype (rs : List Resource) :
    (rs.map (retype id token)).map Resource.id = rs.map Resource.id := by
  rw [List.map_map]
  exact List.map_congr_left fun r _ => id_retype id token r

end Resource

namespace Graph

/-- The resources decide the graph. -/
theorem eq_of_resources {g g' : Graph} (h : g.resources = g'.resources) : g = g' := by
  have hpositions : g.positions = g'.positions := by rw [g.positions_eq, g'.positions_eq, h]
  have hreferrers : g.referrers = g'.referrers := by rw [g.referrers_eq, g'.referrers_eq, h]
  cases g
  cases g'
  cases h
  cases hpositions
  cases hreferrers
  rfl

variable (id token : String) (g : Graph)

theorem nodup_retype :
    ((g.resources.map (Resource.retype id token)).map Resource.id).Nodup := by
  rw [Resource.map_id_retype]
  exact g.nodup

theorem closed_retype : Closed (g.resources.map (Resource.retype id token)) := by
  intro retyped hretyped target htarget
  obtain ⟨r, hr, rfl⟩ := List.mem_map.1 hretyped
  rw [Resource.relations_retype] at htarget
  obtain ⟨s, hs, rfl⟩ := g.closed_resources r hr target htarget
  exact ⟨_, List.mem_map_of_mem hs, Resource.id_retype id token s⟩

/-- The graph with another type token on the resource with the given id. -/
def retype : Graph :=
  .ofClosed (g.resources.map (Resource.retype id token)) (g.nodup_retype id token)
    ((firstDangling?_eq_none_iff (g.nodup_retype id token)).2 (g.closed_retype id token))

@[simp] theorem resources_retype :
    (g.retype id token).resources = g.resources.map (Resource.retype id token) := rfl

/-- The related resources stay the same ones. -/
theorem related_retype (s : Resource) (kind : ResourceKind) :
    (g.retype id token).related (s.retype id token) kind =
      (g.related s kind).map (Resource.retype id token) := by
  rw [related_eq_filter, related_eq_filter, resources_retype, List.filter_map]
  congr 1
  apply List.filter_congr
  intro r _
  simp [areRelated]

end Graph

/-- The judgement of a rule does not depend on type tokens. -/
def Rule.TypeFree (r : Rule) : Prop :=
  ∀ (s : Resource) (g : Graph) (id token : String),
    r.judge (s.retype id token) (g.retype id token) = r.judge s g

namespace Rules

theorem missingFlags_retype (id token : String) (block : Resource) :
    missingFlags (block.retype id token) = missingFlags block := by
  obtain ⟨t, ht⟩ := block.exists_retype_eq id token
  rw [ht]
  rfl

theorem gapsOf_retype (id token : String) (block : Resource) :
    gapsOf (block.retype id token) = gapsOf block := by
  rw [gapsOf, gapsOf, missingFlags_retype, Resource.id_retype]

theorem displayName_retype (id token : String) (s : Resource) :
    (s.retype id token).displayName = s.displayName := by
  obtain ⟨t, ht⟩ := s.exists_retype_eq id token
  rw [ht]
  rfl

/-- The one rule that looks at other resources sees the same blocks under the same ids. -/
theorem typeFree_publicAccessBlockRequired : publicAccessBlockRequired.TypeFree := by
  intro s g id token
  simp only [publicAccessBlockRequired, Graph.related_retype, displayName_retype,
    List.isEmpty_map, List.find?_map, Function.comp_def, missingFlags_retype, List.map_map,
    gapsOf_retype]
  cases (g.related s .accessBlock).find? fun b => (missingFlags b).isEmpty with
  | none => rfl
  | some b => simp only [Option.map_some, Resource.id_retype]

theorem typeFree_of_judge {r : Rule}
    (h : ∀ s t g g', r.judge { s with typeToken := t } g = r.judge s g') : r.TypeFree := by
  intro s g id token
  obtain ⟨t, ht⟩ := s.exists_retype_eq id token
  rw [ht]
  exact h s t _ g

theorem typeFree_builtin (p : Policy) : ∀ r ∈ builtin p, r.TypeFree := by
  intro r hr
  rcases eq_publicAccessBlockRequired_or hr with rfl | hlocal
  · exact typeFree_publicAccessBlockRequired
  · exact typeFree_of_judge hlocal

theorem TypeFree.configure {r : Rule} (h : r.TypeFree) (severity : Severity)
    (patterns : List (List Glob.Part)) : (configure r severity patterns).TypeFree := by
  intro s g id token
  simp only [Rules.configure, Resource.id_retype, h s g id token]

/-- No rule of a catalog depends on type tokens. -/
theorem typeFree_catalog {p : Policy} {c : Catalog} (h : catalog p = .ok c) :
    ∀ r ∈ c.toList, r.TypeFree :=
  forall_mem_catalog h (typeFree_builtin p) fun _ severity patterns hr =>
    TypeFree.configure hr severity patterns

end Rules

theorem Verdict.ofRule_retype {r : Rule} (hr : r.TypeFree) (g : Graph) (s : Resource)
    (id token : String) :
    Verdict.ofRule (g.retype id token) (s.retype id token) r = Verdict.ofRule g s r := by
  have hevaluation : Evaluation.ofRule r (s.retype id token) (g.retype id token) =
      Evaluation.ofRule r s g := by
    unfold Evaluation.ofRule
    rw [hr s g id token]
  unfold Verdict.ofRule
  simp only [hevaluation, Resource.id_retype, Resource.kind_retype, Resource.location_retype]

/-- Rules that do not depend on type tokens give the same report when one of them changes. -/
theorem evaluate_retype {c : Catalog} (hc : ∀ r ∈ c.toList, r.TypeFree) (g : Graph)
    (id token : String) : evaluate (g.retype id token) c = evaluate g c := by
  have hon (s : Resource) :
      verdictsOn (g.retype id token) c (s.retype id token) = verdictsOn g c s := by
    rw [verdictsOn, verdictsOn, Resource.kind_retype]
    apply List.map_congr_left
    intro r hr
    exact Verdict.ofRule_retype (hc r (Catalog.mem_toList_of_mem_rulesFor hr)) g s id token
  have hsize : (g.retype id token).size = g.size := List.length_map _
  rw [evaluate, evaluate, hsize, Graph.resources_retype, List.flatMap_map]
  simp only [hon]

end StackAudit
