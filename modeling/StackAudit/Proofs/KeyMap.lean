import Mathlib.Data.List.Perm.Basic
import Mathlib.Data.List.Nodup
import StackAudit.KeyMap

/-!
# Entries and look-ups of maps

The entries of a map are its look-ups in a fixed order. So two maps with the same look-ups are the
same, and a map that is filled in some order does not remember it.
-/
namespace StackAudit

/-- Lists that ascend strictly by a key and hold the same elements are equal. -/
theorem eq_of_perm_of_ascending {α : Type} {key : α → String} {l l' : List α} (hp : l.Perm l')
    (h : l.Pairwise fun a b => key a < key b) (h' : l'.Pairwise fun a b => key a < key b) :
    l = l' :=
  hp.eq_of_pairwise
    (fun _ _ _ _ hab hba => absurd (String.lt_trans hab hba) (String.lt_irrefl _)) h h'

namespace KeyMap

variable {α : Type}

theorem mem_iff_lookup_eq_some {l : List (String × α)} (h : l.Pairwise fun a b => a.1 < b.1)
    (k : String) (v : α) : (k, v) ∈ l ↔ l.lookup k = some v := by
  induction l with
  | nil => simp
  | cons e r ih =>
    obtain ⟨he, hr⟩ := List.pairwise_cons.1 h
    rw [List.mem_cons, lookup_cons_ite, ih hr]
    by_cases hk : k = e.1
    · have habsent : r.lookup k ≠ some v := by
        intro hv
        have hlt := he _ ((ih hr).2 hv)
        exact String.lt_irrefl _ (hk ▸ hlt)
      simp [hk, Prod.ext_iff, hk ▸ habsent, eq_comm]
    · simp [hk, Prod.ext_iff]

theorem lookup_filter (p : String → Bool) (k : String) (l : List (String × α)) :
    (l.filter fun e => p e.1).lookup k = if p k then l.lookup k else none := by
  induction l with
  | nil => simp
  | cons e r ih =>
    rw [List.filter_cons]
    by_cases hp : p e.1 = true
    · rw [if_pos hp, lookup_cons_ite, lookup_cons_ite, ih]
      by_cases hk : k = e.1 <;> simp [hk, hp]
    · rw [if_neg hp, lookup_cons_ite, ih]
      by_cases hk : k = e.1 <;> simp [hk, hp]

theorem mem_entries_iff {m : KeyMap α} {k : String} {v : α} :
    (k, v) ∈ m.entries ↔ m.get? k = some v :=
  mem_iff_lookup_eq_some m.sorted k v

theorem nodup_keys (m : KeyMap α) : m.keys.Nodup := by
  refine List.pairwise_map.2 (m.sorted.imp ?_)
  intro a b hlt heq
  exact String.lt_irrefl _ (heq ▸ hlt)

theorem mem_keys_iff {m : KeyMap α} {k : String} : k ∈ m.keys ↔ m.contains k = true := by
  simp only [keys, List.mem_map, contains, Option.isSome_iff_exists]
  constructor
  · rintro ⟨e, he, rfl⟩
    exact ⟨e.2, mem_entries_iff.1 he⟩
  · rintro ⟨v, hv⟩
    exact ⟨(k, v), mem_entries_iff.2 hv, rfl⟩

/-- Maps with the same look-ups are equal: both hold the same entries, and in the same order. -/
theorem ext_get? {m m' : KeyMap α} (h : ∀ k, m.get? k = m'.get? k) : m = m' := by
  have hnodup (m : KeyMap α) : m.entries.Nodup := .of_map _ m.nodup_keys
  have hperm : m.entries.Perm m'.entries := by
    rw [List.perm_ext_iff_of_nodup (hnodup m) (hnodup m')]
    rintro ⟨k, v⟩
    rw [mem_entries_iff, mem_entries_iff, h]
  have hentries : m.entries = m'.entries := eq_of_perm_of_ascending hperm m.sorted m'.sorted
  cases m
  cases m'
  cases hentries
  rfl

theorem insertEntry_perm {k : String} {v : α} {l : List (String × α)} (h : l.lookup k = none) :
    (insertEntry k v l).Perm ((k, v) :: l) := by
  induction l with
  | nil => exact .refl _
  | cons e r ih =>
    rw [lookup_cons_ite] at h
    have hk : k ≠ e.1 := by
      rintro rfl
      simp at h
    rw [if_neg hk] at h
    simp only [insertEntry, if_neg hk]
    split
    · exact .refl _
    · exact ((ih h).cons e).trans (.swap _ _ _)

/-- Values may be changed before an entry is put in or after. -/
theorem map_insertEntry {β : Type} (f : String → α → β) (k : String) (v : α)
    (l : List (String × α)) :
    (insertEntry k v l).map (fun e => (e.1, f e.1 e.2)) =
      insertEntry k (f k v) (l.map fun e => (e.1, f e.1 e.2)) := by
  induction l with
  | nil => rfl
  | cons e r ih =>
    simp only [insertEntry, List.map_cons]
    split
    · rfl
    · split
      · rfl
      · rw [List.map_cons, ih]

/-- A new key adds one entry and leaves the others. -/
theorem entries_insert_perm {m : KeyMap α} {k : String} {v : α} (h : m.contains k = false) :
    (m.insert k v).entries.Perm ((k, v) :: m.entries) := by
  apply insertEntry_perm
  cases hv : m.get? k with
  | none => exact hv
  | some w => simp [contains, hv] at h

theorem values_insert_perm {m : KeyMap α} {k : String} {v : α} (h : m.contains k = false) :
    (m.insert k v).values.Perm (v :: m.values) :=
  (entries_insert_perm h).map Prod.snd

theorem contains_insert (m : KeyMap α) (k k' : String) (v : α) :
    (m.insert k v).contains k' = (decide (k' = k) || m.contains k') := by
  simp only [contains, get?_insert]
  by_cases h : k' = k <;> simp [h]

/-- After entries with distinct keys are put in, a key has the value that its entry gives it, and
the old one if it has no entry. -/
theorem get?_foldl_insert_eq_some_iff {l : List (String × α)} (hn : (l.map Prod.fst).Nodup)
    (m : KeyMap α) (k : String) (v : α) :
    (l.foldl (fun m e => m.insert e.1 e.2) m).get? k = some v ↔
      (k, v) ∈ l ∨ k ∉ l.map Prod.fst ∧ m.get? k = some v := by
  induction l generalizing m with
  | nil => simp
  | cons e l ih =>
    obtain ⟨he, hn⟩ := List.nodup_cons.1 hn
    rw [List.foldl_cons, ih hn, get?_insert, List.map_cons, List.mem_cons, List.mem_cons]
    by_cases hk : k = e.1
    · have habsent : (k, v) ∉ l := fun hv => he (hk ▸ List.mem_map_of_mem hv)
      rw [if_pos hk]
      simp [hk, he, hk ▸ habsent, Prod.ext_iff, eq_comm]
    · rw [if_neg hk]
      simp [hk, Prod.ext_iff]

theorem get?_ofList_eq_some_iff {l : List (String × α)} (hn : (l.map Prod.fst).Nodup)
    (k : String) (v : α) : (ofList l).get? k = some v ↔ (k, v) ∈ l := by
  simp [ofList, get?_foldl_insert_eq_some_iff hn]

end KeyMap

namespace KeySet

theorem ext_contains {s s' : KeySet} (h : ∀ k, s.contains k = s'.contains k) : s = s' := by
  apply KeyMap.ext_get?
  intro k
  have hk := h k
  cases hs : s.get? k <;> cases hs' : s'.get? k <;> simp_all [KeyMap.contains]

theorem contains_foldl_add (l : List String) (s : KeySet) (k : String) :
    (l.foldl add s).contains k = (decide (k ∈ l) || s.contains k) := by
  induction l generalizing s with
  | nil => simp
  | cons a l ih =>
    rw [List.foldl_cons, ih, add, KeyMap.contains_insert, Bool.eq_iff_iff]
    simp only [Bool.or_eq_true, decide_eq_true_eq, List.mem_cons]
    tauto

/-- A set does not depend on the order in which its members were added. -/
theorem foldl_add_perm {l l' : List String} (h : l.Perm l') (s : KeySet) :
    l.foldl add s = l'.foldl add s := by
  apply ext_contains
  intro k
  rw [contains_foldl_add, contains_foldl_add]
  simp [h.mem_iff]

theorem mem_toList_iff {s : KeySet} {k : String} : k ∈ s.toList ↔ s.contains k = true :=
  KeyMap.mem_keys_iff

/-- A search through a set finds the least member that it looks for. -/
theorem find?_toList_eq_some_iff {s : KeySet} {p : String → Bool} {k : String} :
    s.toList.find? p = some k ↔
      k ∈ s.toList ∧ p k = true ∧ ∀ k' ∈ s.toList, p k' = true → k ≤ k' := by
  have hsorted : s.toList.Pairwise (· < ·) := List.pairwise_map.2 s.sorted
  rw [List.find?_eq_some_iff_append]
  constructor
  · rintro ⟨hk, before, after, hs, hbefore⟩
    rw [hs, List.pairwise_append, List.pairwise_cons] at hsorted
    refine ⟨by simp [hs], hk, fun k' hmem hk' => ?_⟩
    rw [hs, List.mem_append, List.mem_cons] at hmem
    rcases hmem with hmem | rfl | hmem
    · have hpassed := hbefore k' hmem
      rw [hk'] at hpassed
      cases hpassed
    · exact String.le_refl _
    · exact Std.le_of_lt (hsorted.2.1.1 k' hmem)
  · rintro ⟨hmem, hk, hleast⟩
    obtain ⟨before, after, hs⟩ := List.append_of_mem hmem
    rw [hs, List.pairwise_append] at hsorted
    refine ⟨hk, before, after, hs, fun k' hk' => ?_⟩
    rw [Bool.not_eq_true', Bool.eq_false_iff]
    intro hfound
    have hlt := hsorted.2.2 k' hk' k List.mem_cons_self
    exact absurd (hleast k' (by simp [hs, hk']) hfound) (Std.not_le.2 hlt)

end KeySet

end StackAudit
