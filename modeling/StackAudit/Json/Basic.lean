import StackAudit.KeyMap
import StackAudit.Json.Number
import StackAudit.Text.Blank

/-!
# Values

The values of JSON documents. The fields of an object are kept in the order in which they were
written; `canonical` puts the fields of every object into ascending order, so that canonical
values are equal when they hold the same fields.
-/
namespace StackAudit

/-- A JSON value. -/
inductive Json where
  /-- The absent value. -/
  | null
  /-- A truth value. -/
  | bool (b : Bool)
  /-- A number. -/
  | num (n : Number)
  /-- A text. -/
  | str (s : String)
  /-- A sequence. -/
  | arr (items : List Json)
  /-- A mapping, with its fields in order. -/
  | obj (fields : List (String × Json))

namespace Json

instance : Inhabited Json := ⟨.null⟩

mutual

/-- Structural equality of values. -/
def same : Json → Json → Bool
  | .null, .null => true
  | .bool a, .bool b => a == b
  | .num a, .num b => a == b
  | .str a, .str b => a == b
  | .arr a, .arr b => sameItems a b
  | .obj a, .obj b => sameFields a b
  | _, _ => false

/-- Structural equality of sequences. -/
def sameItems : List Json → List Json → Bool
  | [], [] => true
  | a :: as, b :: bs => same a b && sameItems as bs
  | _, _ => false

/-- Structural equality of lists of fields. -/
def sameFields : List (String × Json) → List (String × Json) → Bool
  | [], [] => true
  | (k, a) :: as, (l, b) :: bs => k == l && same a b && sameFields as bs
  | _, _ => false

end

mutual

theorem same_iff : ∀ a b : Json, same a b = true ↔ a = b
  | .null, b => by cases b <;> simp [same]
  | .bool _, b => by cases b <;> simp [same]
  | .num _, b => by cases b <;> simp [same]
  | .str _, b => by cases b <;> simp [same]
  | .arr as, b => by cases b <;> simp [same, sameItems_iff as]
  | .obj as, b => by cases b <;> simp [same, sameFields_iff as]

theorem sameItems_iff : ∀ as bs : List Json, sameItems as bs = true ↔ as = bs
  | [], bs => by cases bs <;> simp [sameItems]
  | a :: as, bs => by cases bs <;> simp [sameItems, same_iff a, sameItems_iff as]

theorem sameFields_iff : ∀ as bs : List (String × Json), sameFields as bs = true ↔ as = bs
  | [], bs => by cases bs <;> simp [sameFields]
  | (k, a) :: as, [] => by simp [sameFields]
  | (k, a) :: as, (l, b) :: bs => by
    simp [sameFields, same_iff a, sameFields_iff as]

end

instance : DecidableEq Json := fun a b => decidable_of_iff _ (same_iff a b)

/-- Whether the value is `null`. -/
def isNull : Json → Bool
  | .null => true
  | _ => false

/-- The text, if it is one. -/
def asStr? : Json → Option String
  | .str s => some s
  | _ => none

/-- The truth value, if it is one. -/
def asBool? : Json → Option Bool
  | .bool b => some b
  | _ => none

/-- The items, if it is a sequence. -/
def asArr? : Json → Option (List Json)
  | .arr items => some items
  | _ => none

/-- The fields, if it is a mapping. -/
def asObj? : Json → Option (List (String × Json))
  | .obj fields => some fields
  | _ => none

/-- Whether the value is the truth value `true`. -/
def isTrue : Json → Bool
  | .bool b => b
  | _ => false

/-- The trimmed text, if the value is a text that is not blank. -/
def nonBlank? (v : Json) : Option String := v.asStr?.bind Text.trimmed?

/-- The field of a mapping. -/
def get? (v : Json) (k : String) : Option Json := v.asObj?.bind (·.lookup k)

/-- The value unless it is `null`. -/
def nonNull? : Json → Option Json
  | .null => none
  | v => some v

/-- Writes a field: in the place of the field with that key, or at the end. -/
def setField (k : String) (v : Json) : List (String × Json) → List (String × Json)
  | [] => [(k, v)]
  | e :: r => if e.1 = k then (k, v) :: r else e :: setField k v r

/-- The fields of a list in which a later entry replaces an earlier one of the same key, in the
place of the earlier one. -/
def dedupFields (l : List (String × Json)) : List (String × Json) :=
  l.foldl (fun acc e => setField e.1 e.2 acc) []

mutual

/-- The value with the fields of every mapping in ascending order. Of fields with one key the first
is kept. -/
def canonical : Json → Json
  | .arr items => .arr (canonicalItems items)
  | .obj fields => .obj (canonicalFields fields).entries
  | v => v

/-- The canonical forms of a sequence. -/
def canonicalItems : List Json → List Json
  | [] => []
  | v :: r => canonical v :: canonicalItems r

/-- The canonical form of a list of fields. -/
def canonicalFields : List (String × Json) → KeyMap Json
  | [] => ∅
  | (k, v) :: r => (canonicalFields r).insert k (canonical v)

end

@[simp] theorem canonicalItems_eq_map (l : List Json) : canonicalItems l = l.map canonical := by
  induction l with
  | nil => simp [canonicalItems]
  | cons v r ih => simp [canonicalItems, ih]

theorem get?_canonicalFields (l : List (String × Json)) (k : String) :
    (canonicalFields l).get? k = (l.lookup k).map canonical := by
  induction l with
  | nil => simp [canonicalFields]
  | cons e r ih =>
    rw [canonicalFields, KeyMap.get?_insert, KeyMap.lookup_cons_ite, ih]
    by_cases h : k = e.1 <;> simp [h]

/-- Puts a field into a mapping in ascending order; any other value is first replaced by the empty
mapping. -/
def insert (v : Json) (k : String) (x : Json) : Json :=
  .obj (KeyMap.insertEntry k x (v.asObj?.getD []))

/-- The mapping of a map. -/
def ofKeyMap (m : KeyMap Json) : Json := .obj m.entries

@[simp] theorem get?_ofKeyMap (m : KeyMap Json) (k : String) :
    (ofKeyMap m).get? k = m.get? k := rfl

@[simp] theorem get?_insert (v x : Json) (k k' : String) :
    (v.insert k x).get? k' = if k' = k then some x else v.get? k' := by
  cases v <;> simp [insert, get?, asObj?, KeyMap.lookup_insertEntry]

end Json

end StackAudit
