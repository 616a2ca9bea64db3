import StackAudit.Adapters.Builtin
import StackAudit.Assembly
import StackAudit.Proofs.Except
import StackAudit.Proofs.KeyMap

/-!
# What the built-in adapters make

Whatever the type of a declaration, its resource keeps the id and the type token, and has no
relations yet. Only blocks of public access refer to another resource, and only buckets have further
names.
-/
namespace StackAudit

namespace AdapterRegistry

theorem nodup_builtin_tokens : (builtinEntries.map Prod.fst).Nodup := by decide

theorem adapters_foldl_register (l : List (String × Adapter)) (r : AdapterRegistry) :
    (l.foldl (fun r e => r.register e.1 e.2) r).adapters =
      l.foldl (fun m e => m.insert e.1 e.2) r.adapters := by
  induction l generalizing r with
  | nil => rfl
  | cons e l ih => exact ih _

/-- The registry finds an adapter under its own token and under no other. -/
theorem get?_builtin_eq_some_iff {token : String} {a : Adapter} :
    builtin.get? token = some a ↔ (token, a) ∈ builtinEntries := by
  have hadapters : builtin.adapters = KeyMap.ofList builtinEntries := by
    rw [builtin, adapters_foldl_register, KeyMap.ofList]
    rfl
  rw [get?, hadapters, KeyMap.get?_ofList_eq_some_iff nodup_builtin_tokens]

theorem get?_builtin_eq_none_iff {token : String} :
    builtin.get? token = none ↔ token ∉ builtinEntries.map Prod.fst := by
  rw [Option.eq_none_iff_forall_ne_some, List.mem_map, not_exists]
  constructor
  · rintro h ⟨_, a⟩ ⟨he, rfl⟩
    exact h a (get?_builtin_eq_some_iff.2 he)
  · intro h a ha
    exact h (token, a) ⟨get?_builtin_eq_some_iff.1 ha, rfl⟩

theorem mem_builtinEntries_iff {token : String} {a : Adapter} :
    (token, a) ∈ builtinEntries ↔
      (token ∈ Adapters.bucketTokens ∧ a = Adapters.bucket) ∨
      (token ∈ Adapters.accessBlockTokens ∧ a = Adapters.accessBlock) ∨
      (token ∈ Adapters.workloadTokens.map Prod.fst ∧ a = Adapters.workload) ∨
      (token ∈ Adapters.containerTokens ∧ a = Adapters.container) := by
  simp only [builtinEntries, List.mem_append, List.mem_map, Prod.mk.injEq, eq_comm (b := a),
    ← and_assoc, exists_and_right, exists_eq_right, or_assoc]

end AdapterRegistry

theorem Declaration.get?_canonicalProperties (d : Declaration) (k : String) :
    d.canonicalProperties.get? k = (d.properties.get? k).map Json.canonical := by
  unfold canonicalProperties
  cases d.properties with
  | obj fields => exact Json.get?_canonicalFields fields k
  | _ => rfl

namespace Adapters

theorem fields_eq_ok_iff {d : Declaration} {fields : List (String × Json)} :
    d.fields = .ok fields ↔ d.properties = .obj fields := by
  unfold Declaration.fields
  cases d.properties <;> simp

theorem nodup_addAlias {id name : String} {known : List String} (h : known.Nodup) :
    (addAlias id known name).Nodup := by
  unfold addAlias
  by_cases hskip : Text.trim name = "" ∨ Text.trim name = id ∨ known.contains (Text.trim name)
  · rw [if_pos hskip]
    exact h
  · rw [if_neg hskip]
    have hnew : Text.trim name ∉ known := by simp_all
    exact List.nodup_append_comm.1 (List.nodup_cons.2 ⟨hnew, h⟩)

theorem nodup_foldl_addAlias {id : String} (names : List String) {known : List String}
    (h : known.Nodup) : (names.foldl (addAlias id) known).Nodup := by
  induction names generalizing known with
  | nil => exact h
  | cons name names ih =>
    rw [List.foldl_cons]
    exact ih (nodup_addAlias h)

/-- A bucket is noted under each of its further names once. -/
theorem nodup_bucketAliases (d : Declaration) (fields : List (String × Json)) :
    (bucketAliases d fields).Nodup :=
  nodup_foldl_addAlias _ List.nodup_nil

theorem bucket_of_eq_ok {d : Declaration} {a : Adapted} (h : bucket d = .ok a) :
    ∃ fields properties, a =
      { resource := d.toResource .bucket properties, aliases := bucketAliases d fields } := by
  simp only [bucket, bind_eq_ok_iff] at h
  obtain ⟨fields, -, -, -, -, -, -, -, properties, -, h⟩ := h
  exact ⟨fields, properties, (Except.ok.inj h).symm⟩

/-- The properties of a block: the declared ones with the flags and the bucket in one spelling. -/
def blockProperties (d : Declaration) (fields : List (String × Json)) (bucket : String) :
    KeyMap Json :=
  (Rules.blockFlags.foldl (setFlag fields) d.canonicalProperties).insert "bucket" (.str bucket)

theorem blockedBucket_eq_ok_iff {d : Declaration} {fields : List (String × Json)}
    {bucket : String} :
    blockedBucket d fields = .ok bucket ↔
      fields.lookup "bucket" = some (.str bucket) ∧ Text.trim bucket ≠ "" := by
  unfold blockedBucket
  cases fields.lookup "bucket" with
  | none => simp
  | some v =>
    cases v with
    | str s =>
      by_cases hblank : Text.trim s = ""
      · simp only [Json.asStr?, Option.bind_some, if_pos hblank, Option.some.injEq, Json.str.injEq]
        constructor
        · intro h
          cases h
        · rintro ⟨rfl, hbucket⟩
          exact absurd hblank hbucket
      · simp only [Json.asStr?, Option.bind_some, if_neg hblank, Option.some.injEq, Json.str.injEq,
          Except.ok.injEq]
        exact ⟨fun h => ⟨h, h ▸ hblank⟩, And.left⟩
    | _ => simp [Json.asStr?]

/-- A block is accepted when it names a bucket, and that is the only thing it refers to. -/
theorem accessBlock_eq_ok_iff {d : Declaration} {a : Adapted} :
    accessBlock d = .ok a ↔
      ∃ fields bucket, d.properties = .obj fields ∧
        fields.lookup "bucket" = some (.str bucket) ∧ Text.trim bucket ≠ "" ∧
        a = { resource := d.toResource .accessBlock (blockProperties d fields bucket)
              references := [bucket] } := by
  simp only [accessBlock, bind_eq_ok_iff, fields_eq_ok_iff, blockedBucket_eq_ok_iff, pure_eq_ok_iff,
    blockProperties, @eq_comm _ a]
  constructor
  · rintro ⟨fields, hfields, bucket, ⟨hlookup, hblank⟩, ha⟩
    exact ⟨fields, bucket, hfields, hlookup, hblank, ha⟩
  · rintro ⟨fields, bucket, hfields, hlookup, hblank, ha⟩
    exact ⟨fields, hfields, bucket, ⟨hlookup, hblank⟩, ha⟩

theorem workload_of_eq_ok {d : Declaration} {a : Adapted} (h : workload d = .ok a) :
    ∃ properties, a = { resource := d.toResource .workload properties } := by
  simp only [workload, bind_eq_ok_iff] at h
  obtain ⟨fields, -, h⟩ := h
  split at h
  · obtain ⟨spec, -, h⟩ := bind_eq_ok_iff.1 h
    exact ⟨_, (Except.ok.inj h).symm⟩
  · obtain ⟨spec, -, h⟩ := bind_eq_ok_iff.1 h
    exact ⟨_, (Except.ok.inj h).symm⟩
  · cases h

theorem container_of_eq_ok {d : Declaration} {a : Adapted} (h : container d = .ok a) :
    ∃ properties, a = { resource := d.toResource .container properties } := by
  simp only [container, bind_eq_ok_iff] at h
  obtain ⟨fields, -, -, -, security, -, h⟩ := h
  exact ⟨_, (Except.ok.inj h).symm⟩

end Adapters

namespace Assembly

variable {unknown : UnknownKinds} {d : Declaration} {a : Adapted}

theorem adapt_of_get?_eq_some {registry : AdapterRegistry} {adapter : Adapter}
    (h : registry.get? d.typeToken = some adapter) : adapt registry unknown d = adapter d := by
  unfold adapt
  rw [h]

theorem adapt_of_get?_eq_none {registry : AdapterRegistry}
    (h : registry.get? d.typeToken = none) :
    adapt registry unknown d = .ok a ↔ unknown = .passthrough ∧ a = .passthrough d := by
  unfold adapt
  rw [h]
  cases unknown <;> simp [eq_comm]

theorem adapt_passthrough {registry : AdapterRegistry} (h : registry.get? d.typeToken = none) :
    adapt registry .passthrough d = .ok (.passthrough d) :=
  (adapt_of_get?_eq_none h).2 ⟨rfl, rfl⟩

/-- A declaration is adapted by the built-in adapter of its token, or kept as it is. -/
theorem adapt_builtin_cases (h : adapt .builtin unknown d = .ok a) :
    (d.typeToken ∈ Adapters.bucketTokens ∧ Adapters.bucket d = .ok a) ∨
    (d.typeToken ∈ Adapters.accessBlockTokens ∧ Adapters.accessBlock d = .ok a) ∨
    (d.typeToken ∈ Adapters.workloadTokens.map Prod.fst ∧ Adapters.workload d = .ok a) ∨
    (d.typeToken ∈ Adapters.containerTokens ∧ Adapters.container d = .ok a) ∨
    (AdapterRegistry.builtin.get? d.typeToken = none ∧ a = .passthrough d) := by
  cases hget : AdapterRegistry.builtin.get? d.typeToken with
  | some adapter =>
    rw [adapt_of_get?_eq_some hget] at h
    rcases AdapterRegistry.mem_builtinEntries_iff.1
      (AdapterRegistry.get?_builtin_eq_some_iff.1 hget) with
      ⟨htoken, rfl⟩ | ⟨htoken, rfl⟩ | ⟨htoken, rfl⟩ | ⟨htoken, rfl⟩
    · exact .inl ⟨htoken, h⟩
    · exact .inr (.inl ⟨htoken, h⟩)
    · exact .inr (.inr (.inl ⟨htoken, h⟩))
    · exact .inr (.inr (.inr (.inl ⟨htoken, h⟩)))
  | none =>
    obtain ⟨-, ha⟩ := (adapt_of_get?_eq_none hget).1 h
    exact .inr (.inr (.inr (.inr ⟨rfl, ha⟩)))

/-- A declaration under the token of blocks is read as a block. -/
theorem adapt_builtin_of_mem_accessBlockTokens (h : d.typeToken ∈ Adapters.accessBlockTokens) :
    adapt .builtin unknown d = Adapters.accessBlock d :=
  adapt_of_get?_eq_some (AdapterRegistry.get?_builtin_eq_some_iff.2
    (AdapterRegistry.mem_builtinEntries_iff.2 (.inr (.inl ⟨h, rfl⟩))))

theorem adapt_builtin_of_mem_workloadTokens
    (h : d.typeToken ∈ Adapters.workloadTokens.map Prod.fst) :
    adapt .builtin unknown d = Adapters.workload d :=
  adapt_of_get?_eq_some (AdapterRegistry.get?_builtin_eq_some_iff.2
    (AdapterRegistry.mem_builtinEntries_iff.2 (.inr (.inr (.inl ⟨h, rfl⟩)))))

/-- What can become of a declaration: a bucket with its further names, a block that refers to its
bucket, or a resource that neither has further names nor refers to another one. -/
theorem adapt_builtin_shape (h : adapt .builtin unknown d = .ok a) :
    (∃ fields properties, a =
      { resource := d.toResource .bucket properties
        aliases := Adapters.bucketAliases d fields }) ∨
    (d.typeToken ∈ Adapters.accessBlockTokens ∧ Adapters.accessBlock d = .ok a) ∨
    (∃ kind properties, a = { resource := d.toResource kind properties }) := by
  rcases adapt_builtin_cases h with ⟨-, h⟩ | h | ⟨-, h⟩ | ⟨-, h⟩ | ⟨-, rfl⟩
  · exact .inl (Adapters.bucket_of_eq_ok h)
  · exact .inr (.inl h)
  · exact .inr (.inr ⟨_, Adapters.workload_of_eq_ok h⟩)
  · exact .inr (.inr ⟨_, Adapters.container_of_eq_ok h⟩)
  · exact .inr (.inr ⟨_, _, rfl⟩)

/-- An adapted declaration keeps its id and type token and has no relations yet. -/
theorem resource_of_adapt_builtin (h : adapt .builtin unknown d = .ok a) :
    ∃ kind properties, a.resource = d.toResource kind properties := by
  rcases adapt_builtin_shape h with ⟨fields, properties, rfl⟩ | ⟨-, h⟩ | ⟨kind, properties, rfl⟩
  · exact ⟨_, _, rfl⟩
  · obtain ⟨fields, bucket, -, -, -, rfl⟩ := Adapters.accessBlock_eq_ok_iff.1 h
    exact ⟨_, _, rfl⟩
  · exact ⟨_, _, rfl⟩

theorem id_of_adapt_builtin (h : adapt .builtin unknown d = .ok a) : a.resource.id = d.id := by
  obtain ⟨kind, properties, hresource⟩ := resource_of_adapt_builtin h
  exact hresource ▸ rfl

theorem typeToken_of_adapt_builtin (h : adapt .builtin unknown d = .ok a) :
    a.resource.typeToken = d.typeToken := by
  obtain ⟨kind, properties, hresource⟩ := resource_of_adapt_builtin h
  exact hresource ▸ rfl

/-- Only blocks of public access refer to other resources. -/
theorem references_of_adapt_builtin (h : adapt .builtin unknown d = .ok a) :
    a.references = [] ∨
      d.typeToken ∈ Adapters.accessBlockTokens ∧ Adapters.accessBlock d = .ok a := by
  rcases adapt_builtin_shape h with ⟨fields, properties, rfl⟩ | h | ⟨kind, properties, rfl⟩
  · exact .inl rfl
  · exact .inr h
  · exact .inl rfl

/-- No resource is noted under one name twice. -/
theorem nodup_aliases_of_adapt_builtin (h : adapt .builtin unknown d = .ok a) :
    a.aliases.Nodup := by
  rcases adapt_builtin_shape h with ⟨fields, properties, rfl⟩ | ⟨-, h⟩ | ⟨kind, properties, rfl⟩
  · exact Adapters.nodup_bucketAliases d fields
  · obtain ⟨fields, bucket, -, -, -, rfl⟩ := Adapters.accessBlock_eq_ok_iff.1 h
    exact List.nodup_nil
  · exact List.nodup_nil

end Assembly

end StackAudit
