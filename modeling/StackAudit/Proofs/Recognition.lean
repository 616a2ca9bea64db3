import StackAudit.Proofs.Declaration
import StackAudit.Proofs.Resolution

/-!
# Documents with an API version and a kind

An object with an API version, a kind and a name in its metadata is known by these, whatever else it
holds: taken by itself it makes a graph of one resource as soon as its adapter accepts it, and only a
block of public access must in addition find its bucket. All this ends with a type of its own. One
that is not blank is taken for a type token, and the name in the metadata is not asked for any more.
-/
namespace StackAudit

/-- A document by itself makes a graph of one resource, with the given id and type token. -/
def Recognises (raw : RawDocument) (id token : String) : Prop :=
  ∃ g r, Graph.ofDocuments [raw] .builtin .passthrough = .ok g ∧ g.resources = [r] ∧
    r.id = id ∧ r.typeToken = token

namespace Assembly.Found

variable {registry : AdapterRegistry} {unknown : UnknownKinds} {raw : RawDocument}
  {d : Declaration} {a : Adapted}

theorem foldlM_add_singleton (hd : Declaration.ofDocument raw = .ok (some d))
    (ha : adapt registry unknown d = .ok a) :
    [raw].foldlM (add registry unknown) {} = .ok ⟨KeySet.add ∅ d.id, [(d.doc, a)]⟩ := by
  rw [List.foldlM_cons, add_of_declared hd, ha]
  rfl

/-- Where there is one resource, a reference must name it by its id: what refers to anything has no
further names. -/
theorem dangling_singleton_eq_nil_iff (ids : KeySet) (ha : adapt .builtin unknown d = .ok a) :
    (Found.mk ids [(d.doc, a)]).dangling = [] ↔
      ∀ reference ∈ a.references, Reference.key reference = d.id := by
  rw [dangling_eq_nil_iff, List.forall_mem_singleton]
  rcases references_of_adapt_builtin ha with hnone | ⟨-, hblock⟩
  · simp [hnone]
  · obtain ⟨fields, bucket, -, -, -, rfl⟩ := Adapters.accessBlock_eq_ok_iff.1 hblock
    have hnamed (k : String) : (Found.mk ids [(d.doc, Adapted.mk (d.toResource .accessBlock
        (Adapters.blockProperties d fields bucket)) [bucket] [])]).named? k =
        if k = d.id then some k else none := by
      simp [named?, resourceIds, holders, Declaration.toResource]
    simp [hnamed]

end Assembly.Found

open Assembly

variable {raw : RawDocument} {d : Declaration} {a : Adapted}

/-- The adapter makes something of a declaration, and what it makes refers to nothing else. -/
def Declaration.StandsAlone (d : Declaration) : Prop :=
  ∃ a, adapt .builtin .passthrough d = .ok a ∧
    ∀ reference ∈ a.references, Reference.key reference = d.id

theorem Declaration.standsAlone_iff (ha : adapt .builtin .passthrough d = .ok a) :
    d.StandsAlone ↔ ∀ reference ∈ a.references, Reference.key reference = d.id := by
  constructor
  · rintro ⟨a', ha', halone⟩
    obtain rfl : a = a' := Except.ok.inj (ha.symm.trans ha')
    exact halone
  · exact fun halone => ⟨a, ha, halone⟩

/-- A document is recognised by what it declares. -/
theorem recognises_iff {id token : String} :
    Recognises raw id token ↔ ∃ d, Declaration.ofDocument raw = .ok (some d) ∧ d.StandsAlone ∧
      d.id = id ∧ d.typeToken = token := by
  constructor
  · rintro ⟨g, r, hg, hr, rfl, rfl⟩
    obtain ⟨f, hf, hnone, hresources⟩ := Graph.exists_found_of_ofDocuments hg
    have hmem : r ∈ f.adapted.map f.resolved := by
      rw [← hresources, hr]
      exact List.mem_singleton_self r
    obtain ⟨e, he, rfl⟩ := List.mem_map.1 hmem
    obtain ⟨raw', hraw', d, hd, ha, -⟩ := (Found.mem_adapted_iff hf).1 he
    obtain rfl := List.mem_singleton.1 hraw'
    obtain rfl := Except.ok.inj (hf.symm.trans (Found.foldlM_add_singleton hd ha))
    have halone := (Found.dangling_singleton_eq_nil_iff _ ha).1 hnone
    exact ⟨d, hd, ⟨e.2, ha, halone⟩, (id_of_adapt_builtin ha).symm,
      (typeToken_of_adapt_builtin ha).symm⟩
  · rintro ⟨d, hd, ⟨a, ha, halone⟩, rfl, rfl⟩
    have hnone := (Found.dangling_singleton_eq_nil_iff (KeySet.add ∅ d.id) ha).2 halone
    obtain ⟨g, hg, hresources⟩ :=
      Graph.ofDocuments_of_not_dangling (Found.foldlM_add_singleton hd ha) hnone
    exact ⟨g, _, hg, hresources, id_of_adapt_builtin ha, typeToken_of_adapt_builtin ha⟩

/-- An object gives an API version, a kind and a name in its metadata, none of them blank, and the
adapter for them makes something of it. -/
structure Declaration.KindAccepted (doc : DocumentRef) (fields : List (String × Json))
    (version kind name : String) (a : Adapted) : Prop where
  textOf_apiVersion : textOf? fields "apiVersion" = some version
  textOf_kind : textOf? fields "kind" = some kind
  metadataName : metadataName? fields = some name
  adapted : adapt .builtin .passthrough (kinded (refOf doc fields) fields version kind name) = .ok a

variable {doc : DocumentRef} {fields : List (String × Json)} {version kind name : String}

/-- Without a type token such an object is what its version and kind make it. -/
theorem recognises_iff_of_untyped (h : Declaration.KindAccepted doc fields version kind name a)
    (htype : Declaration.textOf? fields "type" = none) :
    Recognises ⟨doc, .obj fields⟩ name (version ++ "/" ++ kind) ↔
      ∀ reference ∈ a.references, Reference.key reference = name := by
  have hd : Declaration.ofDocument ⟨doc, .obj fields⟩ =
      .ok (some (.kinded (Declaration.refOf doc fields) fields version kind name)) := by
    rw [Declaration.ofDocument_of_untyped htype,
      Declaration.ofKind_of_named h.textOf_apiVersion h.textOf_kind h.metadataName]
    rfl
  have halone := Declaration.standsAlone_iff h.adapted
  rw [recognises_iff]
  constructor
  · rintro ⟨d, hd', hstands, -⟩
    obtain rfl := Option.some.inj (Except.ok.inj (hd.symm.trans hd'))
    exact halone.1 hstands
  · intro hself
    exact ⟨_, hd, halone.2 hself, rfl, rfl⟩

/-- With a type token an object is recognised by that, and by a name outside its metadata. -/
theorem recognises_iff_of_typed {type token : String}
    (htype : Declaration.textOf? fields "type" = some type) :
    Recognises ⟨doc, .obj fields⟩ name token ↔
      type = token ∧ Declaration.isInternal type = false ∧
        Declaration.tokenId? fields = some name ∧
        (Declaration.typed (Declaration.refOf doc fields) fields type name).StandsAlone := by
  rw [recognises_iff, Declaration.ofDocument_of_typed htype, Declaration.ofToken_eq]
  cases Declaration.isInternal type with
  | true => simp
  | false =>
    cases hid : Declaration.tokenId? fields with
    | none => simp [Except.map]
    | some id =>
      constructor
      · rintro ⟨d, hd, hstands, rfl, rfl⟩
        obtain rfl := Option.some.inj (Except.ok.inj hd)
        exact ⟨rfl, rfl, rfl, hstands⟩
      · rintro ⟨rfl, -, hname, hstands⟩
        obtain rfl := Option.some.inj hname
        exact ⟨_, rfl, hstands, rfl, rfl⟩

/-- When an object with an API version, a kind and a name in its metadata is recognised by these, if
its adapter accepts it. Without a type token it is, whatever its other fields; under the token of
blocks it must refer to itself as the bucket, since there is no other resource. With a type token it
is not, unless that says the same once more and the object has its name outside the metadata too. -/
theorem recognises_of_kindAccepted (h : Declaration.KindAccepted doc fields version kind name a) :
    (Declaration.textOf? fields "type" = none →
      (Recognises ⟨doc, .obj fields⟩ name (version ++ "/" ++ kind) ↔
        ∀ reference ∈ a.references, Reference.key reference = name) ∧
      (version ++ "/" ++ kind ∉ Adapters.accessBlockTokens →
        Recognises ⟨doc, .obj fields⟩ name (version ++ "/" ++ kind))) ∧
    ∀ type, Declaration.textOf? fields "type" = some type →
      (Recognises ⟨doc, .obj fields⟩ name (version ++ "/" ++ kind) ↔
        type = version ++ "/" ++ kind ∧ Declaration.isInternal type = false ∧
          Declaration.tokenId? fields = some name ∧
          (Declaration.typed (Declaration.refOf doc fields) fields type name).StandsAlone) := by
  refine ⟨fun htype => ?_, fun type htype => recognises_iff_of_typed htype⟩
  have hiff := recognises_iff_of_untyped h htype
  refine ⟨hiff, fun htoken => hiff.2 ?_⟩
  rcases references_of_adapt_builtin h.adapted with hnone | ⟨hblock, -⟩
  · simp [hnone]
  · exact absurd hblock htoken

/-- A blank type does not count, and the name beside the metadata is only called in messages. -/
def settingsFields : List (String × Json) :=
  [("apiVersion", .str " v1"), ("kind", .str "ConfigMap "), ("name", .str "other"),
   ("metadata", .obj [("name", .str " settings")]), ("type", .str " "), ("properties", .obj [])]

theorem recognises_settings :
    Recognises ⟨⟨.here, 0, none⟩, .obj settingsFields⟩ "settings" ("v1" ++ "/" ++ "ConfigMap") := by
  have hunknown : AdapterRegistry.builtin.get? ("v1" ++ "/" ++ "ConfigMap") = none :=
    AdapterRegistry.get?_builtin_eq_none_iff.2 (by decide)
  have haccepted : Declaration.KindAccepted ⟨.here, 0, none⟩ settingsFields "v1" "ConfigMap"
      "settings" (.passthrough (.kinded (Declaration.refOf ⟨.here, 0, none⟩ settingsFields)
        settingsFields "v1" "ConfigMap" "settings")) :=
    ⟨by decide +kernel, by decide +kernel, by decide +kernel, adapt_passthrough hunknown⟩
  exact ((recognises_of_kindAccepted haccepted).1 (by decide +kernel)).2 (by decide)

/-- A secret says of which type its data are. -/
def secretFields : List (String × Json) :=
  [("apiVersion", .str "v1"), ("kind", .str "Secret"), ("metadata", .obj [("name", .str "db")]),
   ("type", .str "Opaque")]

/-- The type of its data hides the version, the kind and the name. -/
theorem not_recognises_secret :
    ∃ a, Declaration.KindAccepted ⟨.here, 0, none⟩ secretFields "v1" "Secret" "db" a ∧
      ¬Recognises ⟨⟨.here, 0, none⟩, .obj secretFields⟩ "db" ("v1" ++ "/" ++ "Secret") := by
  have hunknown : AdapterRegistry.builtin.get? ("v1" ++ "/" ++ "Secret") = none :=
    AdapterRegistry.get?_builtin_eq_none_iff.2 (by decide)
  refine ⟨_, ⟨by decide +kernel, by decide +kernel, by decide +kernel,
    adapt_passthrough hunknown⟩, ?_⟩
  have htype : Declaration.textOf? secretFields "type" = some "Opaque" := by decide +kernel
  intro h
  obtain ⟨hsame, -⟩ := (recognises_iff_of_typed htype).1 h
  exact absurd hsame (by decide)

/-- It is refused for want of a name, and called by its name in the message. -/
example : (Graph.ofDocuments [⟨⟨.here, 0, none⟩, .obj secretFields⟩] .builtin .passthrough).map
    Graph.size = .error (.missingIdentity ⟨.here, 0, some "db"⟩) := by decide +kernel

end StackAudit
