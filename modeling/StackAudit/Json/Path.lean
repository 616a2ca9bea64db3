import StackAudit.Json.Basic

/-!
# Paths into a value

A path is a text of segments between dots. A segment names a field of a mapping or, read as a
number, a position of a sequence; the segment `*` stands for every child. Looking a path up finds at
most one value and knows no `*`; selecting finds all values that a path reaches, in order. The empty
path leads to the value itself.
-/
namespace StackAudit.Json

open StackAudit.Text

/-- The position that a segment names: decimal digits below `2 ^ 64`, with an optional plus sign. -/
def position? (segment : String) : Option Nat :=
  let digits := match segment.toList with
    | '+' :: r => r
    | r => r
  (readDigits? digits).filter (· < UInt64.size)

/-- The child that a segment names. -/
def step? (v : Json) (segment : String) : Option Json :=
  match v with
  | .obj fields => fields.lookup segment
  | .arr items => (position? segment).bind (items[·]?)
  | _ => none

/-- The children of a value, in order. -/
def children : Json → List Json
  | .obj fields => fields.map Prod.snd
  | .arr items => items
  | _ => []

/-- The children that a segment of a selection stands for. -/
def stepAll (v : Json) (segment : String) : List Json :=
  if segment = "*" then v.children else (v.step? segment).toList

/-- Follows the segments one after the other. -/
def followAll? (v : Json) (segments : List String) : Option Json :=
  segments.foldlM step? v

/-- All values reached by following the segments, where `*` stands for every child. -/
def selectAll (vs : List Json) (segments : List String) : List Json :=
  segments.foldl (fun found segment => found.flatMap (stepAll · segment)) vs

/-- The segments of a path; the empty path has none. -/
def segments (path : String) : List String :=
  if path = "" then [] else pieces '.' path

/-- The value that a path leads to. -/
def lookup? (v : Json) (path : String) : Option Json := v.followAll? (segments path)

/-- The values that a path reaches, with every `*` standing for all children. -/
def select (v : Json) (path : String) : List Json := selectAll [v] (segments path)

@[simp] theorem lookup?_empty (v : Json) : v.lookup? "" = some v := rfl

@[simp] theorem select_empty (v : Json) : v.select "" = [v] := rfl

theorem followAll?_append (v : Json) (as bs : List String) :
    v.followAll? (as ++ bs) = (v.followAll? as).bind (·.followAll? bs) := by
  simp only [followAll?, List.foldlM_append]
  rfl

theorem selectAll_append (vs : List Json) (as bs : List String) :
    selectAll vs (as ++ bs) = selectAll (selectAll vs as) bs := by
  simp [selectAll]

theorem selectAll_flatMap (vs : List Json) (ss : List String) :
    selectAll vs ss = vs.flatMap fun v => selectAll [v] ss := by
  induction ss generalizing vs with
  | nil => simp [selectAll]
  | cons s ss ih =>
    have h (us : List Json) : selectAll us (s :: ss) = selectAll (us.flatMap (stepAll · s)) ss := rfl
    rw [h, ih, List.flatMap_assoc]
    congr 1
    funext v
    rw [h, List.flatMap_singleton, ← ih]

end StackAudit.Json
