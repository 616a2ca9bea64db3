import StackAudit.Evaluation
import StackAudit.Proofs.Except
import StackAudit.Proofs.KeyMap

/-!
# The order of rules and verdicts

Rules stand in the order of their severities, the greatest first, and of their keys among equal
severities. A catalog keeps its rules by their keys and sorts them by severity alone; since sorting
is stable, that gives the same order.
-/
namespace StackAudit

/-- Where a rule or a verdict stands: by its severity, and by its key among equal severities. -/
abbrev Standing := Severity × String

namespace Standing

/-- Whether one comes before another or beside it: the greater severity first. -/
def before (a b : Standing) : Bool := b.1 < a.1 || (a.1 = b.1 && a.2 ≤ b.2)

theorem before_iff {a b : Standing} :
    before a b = true ↔ b.1.rank < a.1.rank ∨ a.1.rank = b.1.rank ∧ a.2 ≤ b.2 := by
  have hlt : b.1 < a.1 ↔ b.1.rank < a.1.rank := Iff.rfl
  have heq : a.1 = b.1 ↔ a.1.rank = b.1.rank := ⟨fun h => h ▸ rfl, Severity.rank_injective⟩
  simp [before, hlt, heq]

theorem before_trans (a b c : Standing) (hab : before a b = true) (hbc : before b c = true) :
    before a c = true := by
  rw [before_iff] at *
  rcases hab with hab | ⟨hab, hkab⟩
  · rcases hbc with hbc | ⟨hbc, -⟩ <;> omega
  · rcases hbc with hbc | ⟨hbc, hkbc⟩
    · omega
    · exact .inr ⟨hab.trans hbc, String.le_trans hkab hkbc⟩

theorem before_total (a b : Standing) : (before a b || before b a) = true := by
  rw [Bool.or_eq_true, before_iff, before_iff]
  rcases Nat.lt_trichotomy a.1.rank b.1.rank with hlt | heq | hgt
  · exact .inr (.inl hlt)
  · rcases String.le_total a.2 b.2 with hkey | hkey
    · exact .inl (.inr ⟨heq, hkey⟩)
    · exact .inr (.inr ⟨heq.symm, hkey⟩)
  · exact .inl (.inl hgt)

theorem before_antisymm {a b : Standing} (hab : before a b = true) (hba : before b a = true) :
    a = b := by
  rw [before_iff] at hab hba
  rcases hab with hab | ⟨hrank, hkab⟩
  · omega
  · rcases hba with hba | ⟨-, hkba⟩
    · omega
    · exact Prod.ext (Severity.rank_injective hrank) (String.le_antisymm hkab hkba)

variable {α : Type}

/-- Lists in order that hold the same elements, no two of them with one standing, are equal. -/
theorem eq_of_perm {f : α → Standing} {l l' : List α} (hp : l.Perm l') (hn : (l.map f).Nodup)
    (h : l.Pairwise fun a b => before (f a) (f b) = true)
    (h' : l'.Pairwise fun a b => before (f a) (f b) = true) : l = l' := by
  refine hp.eq_of_pairwise ?_ h h'
  intro a b ha hb hab hba
  exact List.inj_on_of_nodup_map hn ha (hp.mem_iff.2 hb) (before_antisymm hab hba)

theorem pairwise_mergeSort (f : α → Standing) (l : List α) :
    (l.mergeSort fun a b => before (f a) (f b)).Pairwise
      fun a b => before (f a) (f b) = true :=
  List.pairwise_mergeSort (fun a b c => before_trans (f a) (f b) (f c))
    (fun a b => before_total (f a) (f b)) l

end Standing

def Rule.standing (r : Rule) : Standing := (r.severity, r.key)

def Verdict.standing (v : Verdict) : Standing := (v.severity, v.ruleKey)

/-- A list in order by `r` that is sorted by `le` comes out in order by `le`, and by `r` among
elements that `le` does not tell apart. -/
theorem pairwise_mergeSort_of_ties {α : Type} (le : α → α → Bool) {r : α → α → Prop}
    (trans : ∀ a b c, le a b = true → le b c = true → le a c = true)
    (total : ∀ a b, (le a b || le b a) = true) (refl : ∀ a, r a a) {l : List α}
    (h : l.Pairwise r) :
    (l.mergeSort le).Pairwise fun a b => le a b = true ∧ (le b a = true → r a b) := by
  -- Ties are broken by the places in the list, and places are in order by `r`.
  rw [← List.mergeSort_zipIdx, List.pairwise_map]
  have hsorted := List.pairwise_mergeSort (List.zipIdxLE_trans trans) (List.zipIdxLE_total total)
    l.zipIdx
  refine hsorted.imp_of_mem ?_
  rintro ⟨a, i⟩ ⟨b, j⟩ ha hb hle
  rw [List.mem_mergeSort, List.mem_zipIdx_iff_getElem?] at ha hb
  obtain ⟨hi, hai⟩ : ∃ hi : i < l.length, l[i] = a := List.getElem?_eq_some_iff.1 ha
  obtain ⟨hj, hbj⟩ : ∃ hj : j < l.length, l[j] = b := List.getElem?_eq_some_iff.1 hb
  simp only [List.zipIdxLE] at hle
  split at hle
  · rename_i hab
    refine ⟨hab, fun hba => ?_⟩
    rw [if_pos hba, decide_eq_true_eq] at hle
    rcases Nat.eq_or_lt_of_le hle with hij | hlt
    · have hsame : a = b := by
        subst hij
        exact hai.symm.trans hbj
      exact hsame ▸ refl a
    · exact hai ▸ hbj ▸ List.pairwise_iff_getElem.1 h i j hi hj hlt
  · simp at hle

namespace Catalog

/-- Every rule stands under its own key. -/
def Keyed (c : Catalog) : Prop := ∀ e ∈ c.rules.entries, e.1 = e.2.key

theorem keyed_empty : Keyed ∅ := by
  intro e he
  exact absurd he List.not_mem_nil

/-- The rules stand under their own keys, so the keys of a catalog are those of its rules. -/
theorem Keyed.keys_eq {c : Catalog} (hc : c.Keyed) : c.rules.keys = c.toList.map Rule.key := by
  rw [KeyMap.keys, toList, KeyMap.values, List.map_map]
  exact List.map_congr_left hc

/-- A rule is registered unless its key is taken. -/
theorem register_eq_ok_iff {c c' : Catalog} {r : Rule} :
    c.register r = .ok c' ↔ c.rules.contains r.key = false ∧ c' = ⟨c.rules.insert r.key r⟩ := by
  rw [register, run_enter]
  cases c.rules.contains r.key <;> simp [eq_comm]

theorem toList_register_perm {c c' : Catalog} {r : Rule} (h : c.register r = .ok c') :
    c'.toList.Perm (r :: c.toList) := by
  obtain ⟨hfree, rfl⟩ := register_eq_ok_iff.1 h
  exact KeyMap.values_insert_perm hfree

theorem Keyed.register {c c' : Catalog} {r : Rule} (hc : c.Keyed) (h : c.register r = .ok c') :
    c'.Keyed := by
  obtain ⟨hfree, rfl⟩ := register_eq_ok_iff.1 h
  intro e he
  rcases List.mem_cons.1 ((KeyMap.entries_insert_perm hfree).mem_iff.1 he) with rfl | he
  · rfl
  · exact hc e he

/-- Registering rules in turn leaves them beside those that were there before. -/
theorem Keyed.registerAll {rules : List Rule} {c c' : Catalog} (hc : c.Keyed)
    (h : rules.foldlM Catalog.register c = .ok c') :
    c'.Keyed ∧ c'.toList.Perm (c.toList ++ rules) := by
  induction rules generalizing c with
  | nil =>
    have hcc : c = c' := Except.ok.inj h
    subst hcc
    exact ⟨hc, by simp⟩
  | cons r rules ih =>
    rw [List.foldlM_cons, bind_eq_ok_iff] at h
    obtain ⟨d, hd, hrest⟩ := h
    obtain ⟨hkeyed, hperm⟩ := ih (hc.register hd) hrest
    refine ⟨hkeyed, ?_⟩
    calc c'.toList
      _ |>.Perm (d.toList ++ rules) := hperm
      _ |>.Perm ((r :: c.toList) ++ rules) := (toList_register_perm hd).append_right _
      _ |>.Perm (c.toList ++ r :: rules) := List.perm_middle.symm

theorem Keyed.pairwise_key {c : Catalog} (hc : c.Keyed) :
    c.toList.Pairwise fun a b => a.key < b.key := by
  refine List.pairwise_map.2 (c.rules.sorted.imp_of_mem ?_)
  intro a b ha hb hab
  rwa [hc a ha, hc b hb] at hab

theorem Keyed.nodup_key {c : Catalog} (hc : c.Keyed) : (c.toList.map Rule.key).Nodup := by
  refine List.pairwise_map.2 (hc.pairwise_key.imp ?_)
  intro a b hlt heq
  exact String.lt_irrefl _ (heq ▸ hlt)

theorem rulesFor_perm (c : Catalog) (kind : ResourceKind) :
    (c.rulesFor kind).Perm (c.toList.filter (·.applies kind)) :=
  List.mergeSort_perm _ _

theorem mem_toList_of_mem_rulesFor {c : Catalog} {kind : ResourceKind} {r : Rule}
    (h : r ∈ c.rulesFor kind) : r ∈ c.toList :=
  List.mem_of_mem_filter ((c.rulesFor_perm kind).mem_iff.1 h)

theorem Keyed.nodup_key_rulesFor {c : Catalog} (hc : c.Keyed) (kind : ResourceKind) :
    ((c.rulesFor kind).map Rule.key).Nodup :=
  ((c.rulesFor_perm kind).map Rule.key).nodup_iff.2
    (hc.nodup_key.sublist (List.filter_sublist.map _))

theorem Keyed.nodup_standing_rulesFor {c : Catalog} (hc : c.Keyed) (kind : ResourceKind) :
    ((c.rulesFor kind).map Rule.standing).Nodup := by
  apply List.Nodup.of_map Prod.snd
  rw [List.map_map]
  exact hc.nodup_key_rulesFor kind

theorem Keyed.pairwise_rulesFor {c : Catalog} (hc : c.Keyed) (kind : ResourceKind) :
    (c.rulesFor kind).Pairwise fun a b => Standing.before a.standing b.standing = true := by
  have hkeys : (c.toList.filter (·.applies kind)).Pairwise fun a b => a.key ≤ b.key :=
    (hc.pairwise_key.imp fun h => Std.le_of_lt h).filter _
  have hties := pairwise_mergeSort_of_ties severityOrder
    (fun a b c hab hbc => by
      simp only [severityOrder, decide_eq_true_eq, Severity.le_iff_rank] at *
      omega)
    (fun a b => by
      simp only [severityOrder, Bool.or_eq_true, decide_eq_true_eq, Severity.le_iff_rank]
      omega)
    (fun a => String.le_refl a.key) hkeys
  refine hties.imp ?_
  rintro a b ⟨hab, hkey⟩
  simp only [severityOrder, decide_eq_true_eq, Severity.le_iff_rank] at hab hkey
  rw [Standing.before_iff]
  rcases Nat.lt_or_eq_of_le hab with hlt | heq
  · exact .inl hlt
  · exact .inr ⟨heq.symm, hkey (Nat.le_of_eq heq.symm)⟩

end Catalog

end StackAudit
