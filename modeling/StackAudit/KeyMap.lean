/-!
# Maps from text

A finite map whose keys are texts, kept as its entries in ascending order of the keys. The order is
that of the code points, so it is also the order of the bytes in which the keys are written. Two
maps with the same look-ups are equal.
-/
namespace StackAudit

/-- Entries in strictly ascending order of their keys, so no key occurs twice. -/
structure KeyMap (α : Type) where
  /-- The entries, in order. -/
  entries : List (String × α)
  /-- Every key is below the later ones. -/
  sorted : entries.Pairwise fun a b => a.1 < b.1
deriving DecidableEq

namespace KeyMap

variable {α β : Type}

instance : EmptyCollection (KeyMap α) := ⟨⟨[], .nil⟩⟩

instance : Inhabited (KeyMap α) := ⟨∅⟩

/-- Puts an entry at its place in an ascending list, over an entry with the same key. -/
def insertEntry (k : String) (v : α) : List (String × α) → List (String × α)
  | [] => [(k, v)]
  | e :: r =>
    if k < e.1 then (k, v) :: e :: r
    else if k = e.1 then (k, v) :: r
    else e :: insertEntry k v r

theorem key_of_mem_insertEntry {k : String} {v : α} {l : List (String × α)} {a : String × α}
    (h : a ∈ insertEntry k v l) : a.1 = k ∨ a ∈ l := by
  induction l with
  | nil => simp only [insertEntry, List.mem_singleton] at h; simp [h]
  | cons e r ih =>
    simp only [insertEntry] at h
    split at h
    · rcases List.mem_cons.1 h with rfl | h
      · simp
      · exact .inr h
    · split at h
      · rcases List.mem_cons.1 h with rfl | h
        · simp
        · exact .inr (List.mem_cons_of_mem _ h)
      · rcases List.mem_cons.1 h with rfl | h
        · simp
        · exact (ih h).imp id (List.mem_cons_of_mem _)

theorem pairwise_insertEntry (k : String) (v : α) {l : List (String × α)}
    (h : l.Pairwise fun a b => a.1 < b.1) :
    (insertEntry k v l).Pairwise fun a b => a.1 < b.1 := by
  induction l with
  | nil => simp [insertEntry]
  | cons e r ih =>
    obtain ⟨he, hr⟩ := List.pairwise_cons.1 h
    simp only [insertEntry]
    split
    · rename_i hk
      refine List.pairwise_cons.2 ⟨fun a ha => ?_, h⟩
      rcases List.mem_cons.1 ha with rfl | ha
      · exact hk
      · exact String.lt_trans hk (he a ha)
    · rename_i hk
      split
      · rename_i heq
        exact List.pairwise_cons.2 ⟨fun a ha => heq ▸ he a ha, hr⟩
      · rename_i hne
        refine List.pairwise_cons.2 ⟨fun a ha => ?_, ih hr⟩
        rcases key_of_mem_insertEntry ha with h' | h'
        · exact h' ▸ Std.lt_of_le_of_ne hk fun h => hne h.symm
        · exact he a h'

/-- The map with `k` sent to `v`. -/
def insert (m : KeyMap α) (k : String) (v : α) : KeyMap α :=
  ⟨insertEntry k v m.entries, pairwise_insertEntry k v m.sorted⟩

/-- The value of a key. -/
def get? (m : KeyMap α) (k : String) : Option α := m.entries.lookup k

/-- Whether the map has the key. -/
def contains (m : KeyMap α) (k : String) : Bool := (m.get? k).isSome

/-- The keys, ascending. -/
def keys (m : KeyMap α) : List String := m.entries.map Prod.fst

/-- The values, in the order of their keys. -/
def values (m : KeyMap α) : List α := m.entries.map Prod.snd

/-- The number of entries. -/
def size (m : KeyMap α) : Nat := m.entries.length

/-- The map of a list of entries, where a later entry goes over an earlier one of the same key. -/
def ofList (l : List (String × α)) : KeyMap α :=
  l.foldl (fun m e => m.insert e.1 e.2) ∅

/-- The map with every value changed. -/
def map (f : α → β) (m : KeyMap α) : KeyMap β :=
  ⟨m.entries.map fun e => (e.1, f e.2), List.pairwise_map.2 m.sorted⟩

@[simp] theorem get?_empty (k : String) : (∅ : KeyMap α).get? k = none := rfl

@[simp] theorem entries_empty : (∅ : KeyMap α).entries = [] := rfl

theorem lookup_cons_ite (k : String) (e : String × α) (l : List (String × α)) :
    (e :: l).lookup k = if k = e.1 then some e.2 else l.lookup k := by
  rw [List.lookup_cons]
  by_cases h : k = e.1
  · rw [if_pos h, beq_iff_eq.2 h]
  · rw [if_neg h, beq_eq_false_iff_ne.2 h]

theorem lookup_insertEntry (k k' : String) (v : α) (l : List (String × α)) :
    (insertEntry k v l).lookup k' = if k' = k then some v else l.lookup k' := by
  induction l with
  | nil => simp [insertEntry, lookup_cons_ite]
  | cons e r ih =>
    simp only [insertEntry]
    split
    · rw [lookup_cons_ite]
    · split
      · rename_i hk
        rw [lookup_cons_ite, lookup_cons_ite]
        by_cases h : k' = k <;> simp [h, hk ▸ h]
      · rename_i hk
        rw [lookup_cons_ite, lookup_cons_ite, ih]
        by_cases h : k' = e.1
        · simp [h, Ne.symm hk]
        · simp [h]

@[simp] theorem get?_insert_self (m : KeyMap α) (k : String) (v : α) :
    (m.insert k v).get? k = some v := by
  simp [get?, insert, lookup_insertEntry]

theorem get?_insert (m : KeyMap α) (k k' : String) (v : α) :
    (m.insert k v).get? k' = if k' = k then some v else m.get? k' := by
  simp [get?, insert, lookup_insertEntry]

theorem lookup_filter_ne (k k' : String) (l : List (String × α)) :
    (l.filter fun e => e.1 ≠ k).lookup k' = if k' = k then none else l.lookup k' := by
  induction l with
  | nil => simp
  | cons e r ih =>
    rw [List.filter_cons]
    by_cases hx : e.1 = k
    · rw [if_neg (by simp [hx]), ih, lookup_cons_ite]
      by_cases h : k' = k <;> simp [h, hx]
    · rw [if_pos (by simp [hx]), lookup_cons_ite, lookup_cons_ite, ih]
      by_cases h : k' = e.1
      · simp [h, hx]
      · simp [h]

end KeyMap

/-- A finite set of texts. -/
abbrev KeySet := KeyMap Unit

namespace KeySet

/-- The members, ascending. -/
def toList (s : KeySet) : List String := KeyMap.keys s

/-- The set with a further member. -/
def add (s : KeySet) (k : String) : KeySet := KeyMap.insert s k ()

/-- The set of the members of a list. -/
def ofList (l : List String) : KeySet := l.foldl add ∅

end KeySet

end StackAudit
