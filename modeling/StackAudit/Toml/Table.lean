import StackAudit.Json.Basic

/-!
# Tables of a TOML document

A table comes into being by a header, by the keys of a longer header, or by a dotted key. Each may be
defined once: a header may define only what longer headers made, and a dotted key adds a value only
to what dotted keys made. Values of one piece, inline tables among them, cannot be added to.
-/
namespace StackAudit.Toml

/-- How a table came into being. -/
inductive Origin where
  | header
  /-- As part of a longer header. -/
  | passing
  | dotted
deriving DecidableEq

/-- What a key stands for. -/
inductive Entry where
  | value (v : Json)
  | table (origin : Origin) (entries : List (String × Entry))

/-- The entries of a table. -/
abbrev Table := List (String × Entry)

namespace Table

/-- Writes an entry in the place of the one with its key, or at the end. -/
def set (k : String) (e : Entry) : Table → Table
  | [] => [(k, e)]
  | x :: r => if x.1 = k then (k, e) :: r else x :: set k e r

/-- Adds a value under a dotted key. -/
def put (t : Table) (v : Entry) : List String → Option Table
  | [] => none
  | [k] => if (t.lookup k).isSome then none else some (t.set k v)
  | k :: k' :: r =>
    match t.lookup k with
    | none => (put [] v (k' :: r)).map fun sub => t.set k (.table .dotted sub)
    | some (.table origin sub) =>
      if origin = .dotted ∨ (origin = .passing ∧ r ≠ []) then
        (put sub v (k' :: r)).map fun sub => t.set k (.table origin sub)
      else none
    | some (.value _) => none

/-- Adds the values of a section to what a header names. -/
def fill (t : Table) (pairs : List (List String × Entry)) : Option Table :=
  pairs.foldlM (fun t e => t.put e.2 e.1) t

/-- Adds a section under its header. -/
def define (t : Table) (pairs : List (List String × Entry)) : List String → Option Table
  | [] => t.fill pairs
  | [k] =>
    match t.lookup k with
    | none => (fill [] pairs).map fun sub => t.set k (.table .header sub)
    | some (.table .passing sub) =>
      (fill sub pairs).map fun sub => t.set k (.table .header sub)
    | some _ => none
  | k :: k' :: r =>
    match t.lookup k with
    | none => (define [] pairs (k' :: r)).map fun sub => t.set k (.table .passing sub)
    | some (.table origin sub) =>
      (define sub pairs (k' :: r)).map fun sub => t.set k (.table origin sub)
    | some (.value _) => none

end Table

mutual

/-- The value of an entry. -/
def Entry.toJson : Entry → Json
  | .value v => v
  | .table _ entries => .obj (fieldsOf entries)

def fieldsOf : List (String × Entry) → List (String × Json)
  | [] => []
  | (k, e) :: r => (k, e.toJson) :: fieldsOf r

end

end StackAudit.Toml
