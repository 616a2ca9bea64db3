import Mathlib.Data.Set.Function
import StackAudit.Proofs.Text.Digits
import StackAudit.Proofs.UnknownKinds
import StackAudit.Proofs.Verdicts

/-!
# Fingerprints tell violations apart

The identity of a violation is joined from three texts by a sign that the last of them may contain.
The first two never do, since they are the key of a built-in rule and the name of a kind that such
rules are about. So the joined text can be cut in one way only, and two violations with the same
fingerprint are about the same finding unless two texts have the same digest.
-/
namespace StackAudit

namespace Fingerprint

/-! ### From fingerprints to bytes -/

theorem hexDigit_inj {m n : Nat} (hm : m < 16) (hn : n < 16)
    (h : Text.hexDigit m = Text.hexDigit n) : m = n := by
  have hvalue := congrArg Text.hexValue? h
  rwa [Text.hexValue?_hexDigit hm, Text.hexValue?_hexDigit hn, Option.some.injEq] at hvalue

/-- Two digits say which byte they stand for. -/
theorem hex_injective : Function.Injective hex := by
  have hbyte (b : UInt8) : b.toNat / 16 < 16 ∧ b.toNat % 16 < 16 := by
    have := b.toNat_lt
    omega
  intro l l' h
  replace h := String.ofList_injective h
  induction l generalizing l' with
  | nil => cases l' with
    | nil => rfl
    | cons b' l' => simp at h
  | cons b l ih => cases l' with
    | nil => simp at h
    | cons b' l' =>
      simp only [List.flatMap_cons, List.cons_append, List.nil_append, List.cons.injEq] at h
      obtain ⟨hhigh, hlow, hrest⟩ := h
      have hhigh := hexDigit_inj (hbyte b).1 (hbyte b').1 hhigh
      have hlow := hexDigit_inj (hbyte b).2 (hbyte b').2 hlow
      have hb : b = b' := UInt8.toNat_inj.1 (by omega)
      rw [hb, ih hrest]

/-! ### From bytes to the parts of an identity -/

theorem toList_loop (bytes : ByteArray) (i : Nat) (r : List UInt8) :
    ByteArray.toList.loop bytes i r = r.reverse ++ bytes.data.toList.drop i := by
  fun_induction ByteArray.toList.loop bytes i r with
  | case1 i r hlt ih =>
    have hbound : i < bytes.data.toList.length := hlt
    have hget : bytes.get! i = bytes.data.toList[i] := getElem!_pos bytes.data i hlt
    rw [ih, hget, List.drop_eq_getElem_cons hbound]
    simp
  | case2 i r hge =>
    rw [List.drop_eq_nil_of_le (Nat.le_of_not_lt hge), List.append_nil]

theorem toList_eq_data (bytes : ByteArray) : bytes.toList = bytes.data.toList := by
  rw [ByteArray.toList, toList_loop]
  rfl

/-- The encoding of a text says which text it is. -/
theorem toList_toUTF8_inj {s t : String} : s.toUTF8.toList = t.toUTF8.toList ↔ s = t := by
  rw [toList_eq_data, toList_eq_data, Array.toList_inj, ← ByteArray.ext_iff,
    String.toUTF8_eq_toByteArray, String.toUTF8_eq_toByteArray, String.toByteArray_inj]

theorem append_cons_inj {sep : Char} {l l' : List Char} (hl : sep ∉ l) (hl' : sep ∉ l')
    (r r' : List Char) : l ++ sep :: r = l' ++ sep :: r' ↔ l = l' ∧ r = r' := by
  constructor
  · intro h
    have hcut := congrArg (Text.cutFirst sep) h
    rw [Text.cutFirst_append_cons hl, Text.cutFirst_append_cons hl'] at hcut
    simpa using hcut
  · rintro ⟨rfl, rfl⟩
    rfl

/-- An identity is cut at its first two separators, so its parts can be told when the first two of
them have none. -/
theorem identity_inj {key kind id key' kind' id' : String} (hkey : '|' ∉ key.toList)
    (hkind : '|' ∉ kind.toList) (hkey' : '|' ∉ key'.toList) (hkind' : '|' ∉ kind'.toList) :
    identity key kind id = identity key' kind' id' ↔ key = key' ∧ kind = kind' ∧ id = id' := by
  have hparts (key kind id : String) : (identity key kind id).toList =
      key.toList ++ '|' :: (kind.toList ++ '|' :: id.toList) := by
    simp [identity]
  rw [← String.toList_inj, hparts, hparts, append_cons_inj hkey hkey',
    append_cons_inj hkind hkind']
  simp only [String.toList_inj]

end Fingerprint

/-- The bytes whose digest is the fingerprint of the verdict, if it has one. -/
def Verdict.hashed (v : Verdict) : List UInt8 :=
  (Fingerprint.identity v.ruleKey v.resourceKind v.resourceId).toUTF8.toList

/-- The verdict tells of a built-in rule, and of a resource of a kind that such rules are about. -/
structure Verdict.IsBuiltin (v : Verdict) : Prop where
  key : v.ruleKey ∈ RuleKey.all
  kind : v.resourceKind ∈ Rules.judgedKinds.map ResourceKind.name

namespace Rules

/-- A policy brings neither rules nor kinds of its own into a report. -/
theorem isBuiltin_of_mem_evaluate {p : Policy} {c : Catalog} (h : catalog p = .ok c) {g : Graph}
    {v : Verdict} (hv : v ∈ (evaluate g c).verdicts) : v.IsBuiltin := by
  have hrules : ∀ r ∈ c.toList, r.key ∈ RuleKey.all ∧ r.appliesTo ⊆ judgedKinds := by
    refine forall_mem_catalog h (fun r hr => ⟨?_, appliesTo_subset_judgedKinds hr⟩)
      fun _ _ _ hr => hr
    rw [← map_key_builtin p]
    exact List.mem_map_of_mem hr
  obtain ⟨s, -, r, hr, rfl⟩ := mem_verdicts_evaluate_iff.1 hv
  obtain ⟨hkey, hkinds⟩ := hrules r (Catalog.mem_toList_of_mem_rulesFor hr)
  have happlies : r.applies s.kind = true :=
    (List.mem_filter.1 ((c.rulesFor_perm s.kind).mem_iff.1 hr)).2
  exact ⟨hkey, List.mem_map_of_mem (hkinds (List.contains_iff_mem.1 happlies))⟩

end Rules

namespace Verdict

theorem IsBuiltin.separator_not_mem {v : Verdict} (h : v.IsBuiltin) :
    '|' ∉ v.ruleKey.toList ∧ '|' ∉ v.resourceKind.toList := by
  have hkeys : ∀ key ∈ RuleKey.all, '|' ∉ key.toList := by decide
  have hkinds : ∀ name ∈ Rules.judgedKinds.map ResourceKind.name, '|' ∉ name.toList := by decide
  exact ⟨hkeys _ h.key, hkinds _ h.kind⟩

/-- Nothing is asked of the ids. -/
theorem IsBuiltin.hashed_eq_iff {v w : Verdict} (hv : v.IsBuiltin) (hw : w.IsBuiltin) :
    v.hashed = w.hashed ↔
      v.ruleKey = w.ruleKey ∧ v.resourceKind = w.resourceKind ∧ v.resourceId = w.resourceId := by
  obtain ⟨hvkey, hvkind⟩ := hv.separator_not_mem
  obtain ⟨hwkey, hwkind⟩ := hw.separator_not_mem
  rw [hashed, hashed, Fingerprint.toList_toUTF8_inj,
    Fingerprint.identity_inj hvkey hvkind hwkey hwkind]

theorem fingerprint_of_mem_violations {g : Graph} {c : Catalog} {v : Verdict}
    (hv : v ∈ (evaluate g c).violations) :
    v.fingerprint = some (Fingerprint.hex (Sha256.digest v.hashed)) := by
  obtain ⟨hmem, hviolation⟩ := List.mem_filter.1 hv
  obtain ⟨s, -, r, -, rfl⟩ := mem_verdicts_evaluate_iff.1 hmem
  have houtcome : (Evaluation.ofRule r s g).outcome = .violation := of_decide_eq_true hviolation
  simp only [ofRule, houtcome, if_true]
  rfl

end Verdict

/-- No two violations of a report hash the same bytes. -/
theorem nodup_hashed_violations {p : Policy} {c : Catalog} (h : Rules.catalog p = .ok c)
    (g : Graph) : ((evaluate g c).violations.map Verdict.hashed).Nodup := by
  have hsubjects : ((evaluate g c).violations.map Verdict.subject).Nodup :=
    (nodup_subject_evaluate (Rules.catalog_spec h).1 g).sublist (List.filter_sublist.map _)
  refine List.Nodup.map_on ?_ hsubjects.of_map
  intro v hv w hw heq
  have hbuiltin {v : Verdict} (hv : v ∈ (evaluate g c).violations) : v.IsBuiltin :=
    Rules.isBuiltin_of_mem_evaluate h (List.mem_of_mem_filter hv)
  obtain ⟨hkey, -, hid⟩ := ((hbuiltin hv).hashed_eq_iff (hbuiltin hw)).1 heq
  exact List.inj_on_of_nodup_map hsubjects hv hw (Prod.ext hid hkey)

/-- Under any policies and on any graphs, two violations hash the same bytes only if they agree on
rule, kind and resource. Within a report no two do, so their fingerprints differ, unless two of the
byte strings have the same digest. -/
theorem hashed_evaluate_eq_iff {p p' : Policy} {c c' : Catalog} (h : Rules.catalog p = .ok c)
    (h' : Rules.catalog p' = .ok c') (g g' : Graph) :
    (∀ v ∈ (evaluate g c).violations, ∀ w ∈ (evaluate g' c').violations,
      (v.hashed = w.hashed ↔ v.ruleKey = w.ruleKey ∧ v.resourceKind = w.resourceKind ∧
        v.resourceId = w.resourceId)) ∧
    (∀ v ∈ (evaluate g c).violations,
      v.fingerprint = some (Fingerprint.hex (Sha256.digest v.hashed))) ∧
    ((evaluate g c).violations.map Verdict.hashed).Nodup ∧
    (Set.InjOn Sha256.digest {bytes | ∃ v ∈ (evaluate g c).violations, v.hashed = bytes} →
      ((evaluate g c).violations.map Verdict.fingerprint).Nodup) := by
  have hhashed := nodup_hashed_violations h g
  refine ⟨?_, fun v => Verdict.fingerprint_of_mem_violations, hhashed, fun hdigest => ?_⟩
  · intro v hv w hw
    exact (Rules.isBuiltin_of_mem_evaluate h (List.mem_of_mem_filter hv)).hashed_eq_iff
      (Rules.isBuiltin_of_mem_evaluate h' (List.mem_of_mem_filter hw))
  · refine List.Nodup.map_on ?_ hhashed.of_map
    intro v hv w hw heq
    rw [Verdict.fingerprint_of_mem_violations hv, Verdict.fingerprint_of_mem_violations hw,
      Option.some.injEq] at heq
    have hbytes := hdigest ⟨v, hv, rfl⟩ ⟨w, hw, rfl⟩ (Fingerprint.hex_injective heq)
    exact List.inj_on_of_nodup_map hhashed hv hw hbytes

/-- Two buckets, of which one has the separator in its id. -/
def separatorGraph : Graph :=
  .ofClosed [.ofKind "logs" .bucket, .ofKind "logs|ObjectStorageBucket" .bucket] (by decide) rfl

theorem hashed_evaluate_eq_iff_separator :
    ∃ c c', Rules.catalog .strict = .ok c ∧ Rules.catalog legacyPolicy = .ok c' ∧
      (∃ v ∈ (evaluate separatorGraph c).violations,
        v.resourceId = "logs|ObjectStorageBucket") ∧
      (∀ v ∈ (evaluate separatorGraph c).violations, ∀ w ∈ (evaluate legacyGraph c').violations,
        (v.hashed = w.hashed ↔ v.ruleKey = w.ruleKey ∧ v.resourceKind = w.resourceKind ∧
          v.resourceId = w.resourceId)) ∧
      ((evaluate separatorGraph c).violations.map Verdict.hashed).Nodup := by
  obtain ⟨c, hc⟩ : ∃ c, Rules.catalog .strict = .ok c := Rules.exists_catalog_bare .strict
  obtain ⟨c', hc', -⟩ : ∃ c, Rules.catalog legacyPolicy = .ok c ∧ c.size = 9 :=
    exists_eq_ok_of_map (by decide +kernel)
  have hrule : Rules.encryptionRequired ∈ c.rulesFor .bucket :=
    (@Rules.mem_rulesFor_bare_iff .strict c hc _ _).2 ⟨by simp [Rules.builtin], rfl⟩
  have hverdict : Verdict.ofRule separatorGraph (.ofKind "logs|ObjectStorageBucket" .bucket)
      Rules.encryptionRequired ∈ (evaluate separatorGraph c).verdicts :=
    mem_verdicts_evaluate_iff.2
      ⟨_, List.mem_cons_of_mem _ List.mem_cons_self, _, hrule, rfl⟩
  obtain ⟨hiff, -, hhashed, -⟩ := hashed_evaluate_eq_iff hc hc' separatorGraph legacyGraph
  exact ⟨c, c', hc, hc', ⟨_, List.mem_filter.2 ⟨hverdict, by decide⟩, rfl⟩, hiff, hhashed⟩

end StackAudit
