import StackAudit.Proofs.Json.Path
import StackAudit.Proofs.Json.Spellings
import StackAudit.Resource

/-!
# Properties by path

The properties of a resource are reached as if they were one mapping and the path were followed from
there, with a single exception: a path of one segment with a dot behind it. In a mapping the empty
segment behind the dot counts as well. A resource takes the nothing behind the dot for the empty
path and answers with whatever the segment reaches.
-/
namespace StackAudit

/-- A filter that changes everything it keeps loses something of every list but the empty one. -/
theorem filterMap_eq_self_iff {α : Type} {f : α → Option α} (hf : ∀ a, f a ≠ some a) {l : List α} :
    l.filterMap f = l ↔ l = [] := by
  constructor
  · intro h
    cases l with
    | nil => rfl
    | cons a l =>
      exfalso
      cases hfa : f a with
      | none =>
        rw [List.filterMap_cons_none hfa] at h
        have hle := List.length_filterMap_le f l
        rw [h, List.length_cons] at hle
        omega
      | some b =>
        rw [List.filterMap_cons_some hfa] at h
        have hb : b = a := (List.cons_eq_cons.1 h).1
        exact hf a (hb ▸ hfa)
  · rintro rfl
    rfl

namespace Resource

open Text (splitFirst)

variable (r : Resource) {path head rest : String}

/-- The properties of a resource as one mapping. -/
def asMapping : Json := .ofKeyMap r.properties

theorem property?_of_splitFirst (h : splitFirst '.' path = some (head, rest)) :
    r.property? path = (r.asMapping.step? head).bind (·.lookup? rest) := by
  rw [property?, h]
  rfl

theorem select_of_splitFirst (h : splitFirst '.' path = some (head, rest)) :
    r.select path = (r.asMapping.stepAll head).flatMap (·.select rest) := by
  rw [select, h]
  rfl

/-- A path of two segments leads to a field of a property, if the second is no position. -/
theorem property?_of_pair {k : String} (h : splitFirst '.' path = some (head, k)) (hne : k ≠ "")
    (hdot : '.' ∉ k.toList) (hposition : Json.position? k = none) :
    r.property? path = (r.properties.get? head).bind (·.get? k) := by
  have hfield : (fun v : Json => v.lookup? k) = fun v => v.get? k :=
    funext fun v => Json.lookup?_eq_get? hne hdot hposition v
  rw [property?, h]
  exact congrArg (r.properties.get? head).bind hfield

/-- A path that does not end with its first dot is followed alike: a single segment names a property
in either way, and behind the first dot there is something to follow. -/
theorem agree_of_rest_ne (hne : path ≠ "") (h : ∀ head, splitFirst '.' path ≠ some (head, "")) :
    r.property? path = r.asMapping.lookup? path ∧ r.select path = r.asMapping.select path := by
  cases hsplit : splitFirst '.' path with
  | none =>
    have hsegments := Json.segments_of_not_splitFirst hne hsplit
    have hselect : r.select path = (r.asMapping.stepAll path).flatMap fun v => [v] := by
      rw [select, hsplit]
      rfl
    constructor
    · rw [property?, hsplit, Json.lookup?, hsegments]
      exact (bind_pure _).symm
    · rw [hselect, List.flatMap_singleton', Json.select, hsegments, Json.selectAll, List.foldl_cons,
        List.foldl_nil, List.flatMap_singleton]
  | some parts =>
    obtain ⟨head, rest⟩ := parts
    have hrest : rest ≠ "" := by
      rintro rfl
      exact h head hsplit
    rw [property?_of_splitFirst r hsplit, select_of_splitFirst r hsplit,
      Json.lookup?_of_splitFirst _ hsplit, Json.select_of_splitFirst _ hsplit,
      Json.pieces_of_ne hrest]
    exact ⟨rfl, rfl⟩

/-- A path that ends with its first dot: the resource ignores the dot, and no child of a value under
the empty key is the value itself. -/
theorem property?_eq_iff_of_rest_empty (h : splitFirst '.' path = some (head, "")) :
    r.property? path = r.asMapping.lookup? path ↔ r.asMapping.step? head = none := by
  rw [property?_of_splitFirst r h, Json.lookup?_of_splitFirst _ h]
  cases r.asMapping.step? head with
  | none => simp
  | some v =>
    have hchild : v.followAll? (Text.pieces '.' "") = v.step? "" := bind_pure _
    rw [Option.bind_some, Option.bind_some, Json.lookup?_empty, hchild]
    exact iff_of_false (fun h => v.step?_ne_self "" h.symm) (Option.some_ne_none v)

theorem select_eq_iff_of_rest_empty (h : splitFirst '.' path = some (head, "")) :
    r.select path = r.asMapping.select path ↔ r.asMapping.stepAll head = [] := by
  have hchildren (v : Json) : Json.selectAll [v] (Text.pieces '.' "") = (v.step? "").toList :=
    List.flatMap_singleton _ _
  rw [select_of_splitFirst r h, Json.select_of_splitFirst _ h]
  simp only [hchildren, Json.select_empty, List.flatMap_singleton']
  rw [← List.filterMap_eq_flatMap_toList, eq_comm,
    filterMap_eq_self_iff fun v => v.step?_ne_self ""]

/-- A resource and the mapping of its properties give the same at every path that is not empty, but
for a segment with a single dot behind it that reaches something. -/
theorem navigation_agrees_iff (hne : path ≠ "") :
    (r.property? path = r.asMapping.lookup? path ↔
      ∀ head, path = head ++ "." → '.' ∉ head.toList → r.asMapping.step? head = none) ∧
    (r.select path = r.asMapping.select path ↔
      ∀ head, path = head ++ "." → '.' ∉ head.toList → r.asMapping.stepAll head = []) := by
  -- The exceptional paths are those that are cut at their first dot with nothing behind it.
  have hcut (P : String → Prop) : (∀ head, path = head ++ "." → '.' ∉ head.toList → P head) ↔
      ∀ head, splitFirst '.' path = some (head, "") → P head := by
    simp only [Text.splitFirst_eq_some_iff, String.append_empty, and_imp]
    exact forall_congr' fun head => forall_comm
  rw [hcut, hcut]
  by_cases hends : ∃ head, splitFirst '.' path = some (head, "")
  · obtain ⟨head, hhead⟩ := hends
    have honly (P : String → Prop) :
        (∀ other, splitFirst '.' path = some (other, "") → P other) ↔ P head := by
      simp [hhead]
    rw [honly, honly]
    exact ⟨property?_eq_iff_of_rest_empty r hhead, select_eq_iff_of_rest_empty r hhead⟩
  · rw [not_exists] at hends
    obtain ⟨hproperty, hselect⟩ := agree_of_rest_ne r hne hends
    exact ⟨iff_of_true hproperty fun head h => absurd h (hends head),
      iff_of_true hselect fun head h => absurd h (hends head)⟩

/-- A service with an empty key among its ports and without a property `status`. -/
def webService : Resource :=
  { ofKind "web" ⟨"v1/Service"⟩ with
    properties := Json.canonicalFields
      [("spec", .obj [("ports", .arr [.obj [("", .str "http")], .obj [("", .str "admin")]])])] }

/-- A dot at the end counts as soon as another one stands before it, and where nothing is reached
anyway. -/
theorem navigation_agrees_ports :
    "spec.ports.*." ≠ "" ∧
      webService.property? "spec.ports.0." = webService.asMapping.lookup? "spec.ports.0." ∧
      webService.property? "spec.ports.0." = some (.str "http") ∧
      webService.select "spec.ports.*." = webService.asMapping.select "spec.ports.*." ∧
      webService.select "spec.ports.*." = [.str "http", .str "admin"] ∧
      webService.property? "status." = webService.asMapping.lookup? "status." := by
  have hne : "spec.ports.*." ≠ "" := by decide
  -- In front of the last dot there is one segment at most.
  have hports : ∀ head, "spec.ports.0" ++ "." = head ++ "." → '.' ∉ head.toList →
      webService.asMapping.step? head = none := by
    intro head hpath hdot
    rw [← (String.append_left_inj ".").1 hpath] at hdot
    exact absurd hdot (by decide)
  have hall : ∀ head, "spec.ports.*" ++ "." = head ++ "." → '.' ∉ head.toList →
      webService.asMapping.stepAll head = [] := by
    intro head hpath hdot
    rw [← (String.append_left_inj ".").1 hpath] at hdot
    exact absurd hdot (by decide)
  have hstatus : ∀ head, "status" ++ "." = head ++ "." → '.' ∉ head.toList →
      webService.asMapping.step? head = none := by
    intro head hpath _
    rw [← (String.append_left_inj ".").1 hpath]
    decide +kernel
  exact ⟨hne, (navigation_agrees_iff webService (by decide)).1.2 hports, by decide +kernel,
    (navigation_agrees_iff webService hne).2.2 hall, by decide +kernel,
    (navigation_agrees_iff webService (by decide)).1.2 hstatus⟩

/-- Where the segment reaches something, the resource gives that and the mapping nothing. -/
theorem not_navigation_agrees_trailingDot :
    webService.property? "spec." ≠ webService.asMapping.lookup? "spec." ∧
      webService.select "*." ≠ webService.asMapping.select "*." := by
  decide +kernel

end Resource

end StackAudit
