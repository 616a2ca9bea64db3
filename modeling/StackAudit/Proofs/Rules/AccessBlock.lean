import StackAudit.Evaluation
import StackAudit.Proofs.Adapters
import StackAudit.Proofs.Json.Spellings

/-!
# The flags of a block

The rule about blocks of public access passes a bucket when one related block has every flag on. The
flags that it reads are those that were declared: each in the first of its two spellings that says
anything.
-/
namespace StackAudit

namespace Rules

/-- The rule comes to a conclusion on every resource: one complete block among the related ones is
enough, whichever it is. -/
theorem judge_publicAccessBlockRequired (s : Resource) (g : Graph) :
    ∃ e, publicAccessBlockRequired.judge s g = .ok e ∧
      e.outcome = if (g.related s .accessBlock).any fun b => (missingFlags b).isEmpty then .pass
        else .violation := by
  unfold publicAccessBlockRequired
  dsimp only
  generalize g.related s .accessBlock = blocks
  cases hfind : blocks.find? fun b => (missingFlags b).isEmpty with
  | none =>
    have hany : ¬(blocks.any fun b => (missingFlags b).isEmpty) = true := by
      rw [List.any_eq_true]
      rintro ⟨b, hb, hcomplete⟩
      exact List.find?_eq_none.1 hfind b hb hcomplete
    by_cases hempty : blocks.isEmpty = true
    · rw [if_pos hempty, if_neg hany]
      exact ⟨_, rfl, rfl⟩
    · rw [if_neg hempty, if_neg hany]
      exact ⟨_, rfl, rfl⟩
  | some b =>
    have hb : b ∈ blocks := List.mem_of_find?_eq_some hfind
    have hcomplete : (missingFlags b).isEmpty = true := by
      simpa using List.find?_some hfind
    have hany : (blocks.any fun b => (missingFlags b).isEmpty) = true :=
      List.any_eq_true.2 ⟨b, hb, hcomplete⟩
    have hempty : ¬blocks.isEmpty = true := by
      rw [List.isEmpty_iff]
      exact List.ne_nil_of_mem hb
    rw [if_neg hempty, if_pos hany]
    exact ⟨_, rfl, rfl⟩

theorem outcome_publicAccessBlockRequired (s : Resource) (g : Graph) :
    (Evaluation.ofRule publicAccessBlockRequired s g).outcome =
      if (g.related s .accessBlock).any fun b => (missingFlags b).isEmpty then .pass
      else .violation := by
  obtain ⟨e, he, houtcome⟩ := judge_publicAccessBlockRequired s g
  rw [Evaluation.ofRule, he]
  exact houtcome

/-- The flags of a block, each in its two spellings. -/
def flagSpellings : List (String × String) :=
  [("blockPublicAcls", "block_public_acls"),
   ("blockPublicPolicy", "block_public_policy"),
   ("ignorePublicAcls", "ignore_public_acls"),
   ("restrictPublicBuckets", "restrict_public_buckets")]

/-- A flag is on when the first of its spellings that is there and not `null` says true. -/
def FlagOn (v : Json) (spellings : String × String) : Prop :=
  v.get? spellings.1 = some (.bool true) ∨
    (v.get? spellings.1 = none ∨ v.get? spellings.1 = some .null) ∧
      v.get? spellings.2 = some (.bool true)

instance (v : Json) (spellings : String × String) : Decidable (FlagOn v spellings) :=
  inferInstanceAs (Decidable (_ ∨ _))

theorem isTrue_canonical (v : Json) : v.canonical.isTrue = v.isTrue := by
  cases v <;> rfl

theorem isTrue_iff {v : Json} : v.isTrue = true ↔ v = .bool true := by
  cases v <;> simp [Json.isTrue]

theorem flagSpellings_eq_map :
    flagSpellings = blockFlags.map fun flag => (flag, Adapters.snakeCase flag) := by
  decide

theorem property?_of_not_mem {r : Resource} {path : String} (h : '.' ∉ path.toList) :
    r.property? path = r.properties.get? path := by
  rw [Resource.property?, Text.splitFirst, Text.cutFirst_eq_none_iff.2 h]
  rfl

/-- A block is complete when every flag of its properties is true. -/
theorem isEmpty_missingFlags_iff {block : Resource} :
    (missingFlags block).isEmpty = true ↔
      ∀ flag ∈ blockFlags, block.properties.get? flag |>.any Json.isTrue := by
  have hdots : ∀ flag ∈ blockFlags, '.' ∉ flag.toList := by decide
  simp only [missingFlags, List.isEmpty_iff, List.filter_eq_nil_iff, Bool.not_eq_true',
    Bool.not_eq_false]
  refine forall₂_congr fun flag hflag => ?_
  rw [property?_of_not_mem (hdots flag hflag)]

end Rules

namespace Adapters

open Rules Json

theorem get?_setFlag (fields : List (String × Json)) (properties : KeyMap Json)
    (flag k : String) :
    (setFlag fields properties flag).get? k =
      if k = flag then ((firstOf? fields [flag, snakeCase flag]).map canonical).or
        (properties.get? k)
      else properties.get? k := by
  unfold setFlag
  cases firstOf? fields [flag, snakeCase flag] with
  | none => simp
  | some v => rw [KeyMap.get?_insert]; simp

/-- A flag is kept in its first spelling; where no spelling of it says anything, nothing changes. -/
theorem get?_foldl_setFlag (fields : List (String × Json)) (flags : List String)
    (properties : KeyMap Json) (k : String) :
    (flags.foldl (setFlag fields) properties).get? k =
      if k ∈ flags then ((firstOf? fields [k, snakeCase k]).map canonical).or (properties.get? k)
      else properties.get? k := by
  induction flags generalizing properties with
  | nil => rfl
  | cons flag flags ih =>
    rw [List.foldl_cons, ih, get?_setFlag]
    by_cases hk : k = flag
    · subst hk
      rw [if_pos rfl, if_pos List.mem_cons_self]
      -- A flag that is listed twice is written twice, with the same value.
      split
      · rw [← Option.or_assoc, Option.or_self]
      · rfl
    · rw [if_neg hk]
      simp [hk]

theorem firstOf?_flag_iff {fields : List (String × Json)} {camel snake : String} :
    firstOf? fields [camel, snake] = some (.bool true) ↔ FlagOn (.obj fields) (camel, snake) := by
  have hget (k : String) : (Json.obj fields).get? k = fields.lookup k := rfl
  have hsnake : firstOf? fields [snake] = some (.bool true) ↔
      fields.lookup snake = some (.bool true) := by
    rw [firstOf?_cons]
    rcases fields.lookup snake with _ | v
    · simp [firstOf?]
    · cases v <;> simp [firstOf?, nonNull?]
  rw [firstOf?_cons, FlagOn, hget, hget, ← hsnake]
  rcases fields.lookup camel with _ | v
  · simp
  · cases v <;> simp [nonNull?]

/-- A block is complete when every flag is declared as true. -/
theorem isEmpty_missingFlags_blockProperties_iff {d : Declaration} {fields : List (String × Json)}
    (hd : d.properties = .obj fields) {block : Resource} {bucket : String}
    (hblock : block.properties = blockProperties d fields bucket) :
    (missingFlags block).isEmpty = true ↔ ∀ s ∈ flagSpellings, FlagOn d.properties s := by
  have hbucket : ∀ flag ∈ blockFlags, flag ≠ "bucket" := by decide
  rw [isEmpty_missingFlags_iff, flagSpellings_eq_map, List.forall_mem_map, hd]
  refine forall₂_congr fun flag hflag => ?_
  rw [hblock, blockProperties, KeyMap.get?_insert, if_neg (hbucket flag hflag),
    get?_foldl_setFlag, if_pos hflag, ← firstOf?_flag_iff, d.get?_canonicalProperties, hd, get?,
    asObj?, Option.bind_some]
  cases hfirst : firstOf? fields [flag, snakeCase flag] with
  | some v => simp [isTrue_canonical, isTrue_iff]
  | none =>
    rw [firstOf?_cons, Option.or_eq_none_iff] at hfirst
    cases hlookup : fields.lookup flag with
    | none => simp
    | some v =>
      have hnull : v = .null := nonNull?_eq_none_iff.1 (by simpa [hlookup] using hfirst.1)
      simp [hnull, canonical, Json.isTrue]

end Adapters

end StackAudit
