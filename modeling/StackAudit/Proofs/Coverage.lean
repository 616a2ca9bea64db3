import StackAudit.Proofs.Resolution
import StackAudit.Proofs.Rules.AccessBlock

/-!
# Which buckets are covered

A bucket is covered when a document declares a block of public access that refers to the bucket and
has every flag on. The rule about such blocks sees neither documents nor references, only relations
between resources; still it passes exactly the buckets that are covered.
-/
namespace StackAudit

open Assembly

/-- A declaration covers the resource with the given id: it is a block, its bucket resolves to the
resource, and each of its flags is on. -/
structure Declaration.Covers (d : Declaration) (f : Found) (id : String) : Prop where
  token : d.typeToken ∈ Adapters.accessBlockTokens
  bucket : ∃ reference, d.properties.get? "bucket" = some (.str reference) ∧
    f.named? (Reference.key reference) = some id
  flags : ∀ s ∈ Rules.flagSpellings, Rules.FlagOn d.properties s

namespace Graph

variable {unknown : UnknownKinds} {docs : List RawDocument} {f : Found}

/-- A block that refers to a resource and is complete comes from a declaration that covers it. -/
theorem covers_iff_of_accessBlock {d : Declaration} {e : DocumentRef × Adapted} {id : String}
    (htoken : d.typeToken ∈ Adapters.accessBlockTokens) (ha : Adapters.accessBlock d = .ok e.2) :
    d.Covers f id ↔
      (∃ reference ∈ e.2.references, f.named? (Reference.key reference) = some id) ∧
        (Rules.missingFlags (f.resolved e)).isEmpty = true := by
  obtain ⟨fields, bucket, hfields, hlookup, -, hshape⟩ := Adapters.accessBlock_eq_ok_iff.1 ha
  have hget : d.properties.get? "bucket" = some (.str bucket) := by
    rw [hfields]
    exact hlookup
  have hproperties : (f.resolved e).properties = Adapters.blockProperties d fields bucket := by
    rw [Found.resolved, hshape]
    rfl
  rw [Adapters.isEmpty_missingFlags_blockProperties_iff hfields hproperties, hshape]
  simp only [List.mem_singleton, exists_eq_left]
  constructor
  · rintro ⟨-, ⟨reference, hreference, hnamed⟩, hflags⟩
    rw [hget] at hreference
    cases hreference
    exact ⟨hnamed, hflags⟩
  · rintro ⟨hnamed, hflags⟩
    exact ⟨htoken, ⟨bucket, hget, hnamed⟩, hflags⟩

theorem accessBlock_ne_bucket : ResourceKind.accessBlock ≠ .bucket := by decide

/-- Buckets refer to nothing, also those that were kept as resources of an unknown kind. -/
theorem references_of_kind_bucket (hf : docs.foldlM (Found.add .builtin unknown) {} = .ok f)
    {e : DocumentRef × Adapted} (he : e ∈ f.adapted) (hkind : e.2.resource.kind = .bucket) :
    e.2.references = [] := by
  obtain ⟨raw, -, d, -, ha, -⟩ := (Found.mem_adapted_iff hf).1 he
  refine (references_of_adapt_builtin ha).resolve_right ?_
  rintro ⟨-, hblock⟩
  obtain ⟨fields, bucket, -, -, -, hshape⟩ := Adapters.accessBlock_eq_ok_iff.1 hblock
  rw [hshape] at hkind
  exact accessBlock_ne_bucket hkind

theorem areRelated_of_kind_bucket (hf : docs.foldlM (Found.add .builtin unknown) {} = .ok f)
    {e : DocumentRef × Adapted} (he : e ∈ f.adapted) (hkind : e.2.resource.kind = .bucket)
    (s : Resource) :
    areRelated (f.resolved e) s = s.relations.contains (f.resolved e).id := by
  have hnone : (f.resolved e).relations.contains s.id = false := by
    rw [← Bool.not_eq_true, Found.contains_relations_resolved,
      references_of_kind_bucket hf he hkind]
    simp
  rw [areRelated, hnone, Bool.false_or]

/-- A bucket is related to a complete block when some document covers it. -/
theorem any_related_iff_covers (hf : docs.foldlM (Found.add .builtin unknown) {} = .ok f)
    {g : Graph} (hg : g.resources = f.adapted.map f.resolved) {b : Resource}
    (hb : b ∈ g.resources) (hkind : b.kind = .bucket) :
    ((g.related b .accessBlock).any fun s => (Rules.missingFlags s).isEmpty) = true ↔
      ∃ raw ∈ docs, ∃ d, Declaration.ofDocument raw = .ok (some d) ∧ d.Covers f b.id := by
  rw [hg] at hb
  obtain ⟨eb, heb, rfl⟩ := List.mem_map.1 hb
  rw [related_eq_filter, hg, List.any_filter, List.any_map, List.any_eq_true]
  simp only [Function.comp, Bool.and_eq_true, areRelated_of_kind_bucket hf heb hkind,
    Found.contains_relations_resolved, decide_eq_true_eq]
  constructor
  · rintro ⟨e, he, ⟨⟨-, hreference⟩, -⟩, hcomplete⟩
    obtain ⟨raw, hraw, d, hd, ha, -⟩ := (Found.mem_adapted_iff hf).1 he
    obtain ⟨reference, hmem, hnamed⟩ := hreference
    obtain ⟨htoken, hblock⟩ :=
      (references_of_adapt_builtin ha).resolve_left (List.ne_nil_of_mem hmem)
    exact ⟨raw, hraw, d, hd,
      (covers_iff_of_accessBlock htoken hblock).2 ⟨⟨reference, hmem, hnamed⟩, hcomplete⟩⟩
  · rintro ⟨raw, hraw, d, hd, hcovers⟩
    obtain ⟨a, ha, he⟩ := Found.exists_mem_adapted hf hraw hd
    rw [adapt_builtin_of_mem_accessBlockTokens hcovers.token] at ha
    obtain ⟨hreference, hcomplete⟩ :=
      (covers_iff_of_accessBlock (e := (d.doc, a)) hcovers.token ha).1 hcovers
    have hblock : a.resource.kind = .accessBlock := by
      obtain ⟨fields, bucket, -, -, -, rfl⟩ := Adapters.accessBlock_eq_ok_iff.1 ha
      rfl
    refine ⟨(d.doc, a), he, ⟨⟨?_, hreference⟩, hblock⟩, hcomplete⟩
    -- A block with the id of the bucket would be the bucket.
    intro hid
    obtain rfl : eb = (d.doc, a) :=
      List.inj_on_of_nodup_map (Found.sound_of_foldlM_add hf).nodup_ids heb he hid
    exact accessBlock_ne_bucket (hblock.symm.trans hkind)

/-- The rule about blocks of public access passes exactly the covered buckets: those to which a
document refers that declares a block with every flag on. All other buckets break the rule. -/
theorem judge_publicAccessBlockRequired_ofDocuments {g : Graph}
    (hg : ofDocuments docs .builtin unknown = .ok g) {b : Resource} (hb : b ∈ g.resources)
    (hkind : b.kind = .bucket) :
    ∃ f e, docs.foldlM (Found.add .builtin unknown) {} = .ok f ∧
      Rules.publicAccessBlockRequired.judge b g = .ok e ∧
      (e.outcome = .pass ↔
        ∃ raw ∈ docs, ∃ d, Declaration.ofDocument raw = .ok (some d) ∧ d.Covers f b.id) ∧
      ((¬∃ raw ∈ docs, ∃ d, Declaration.ofDocument raw = .ok (some d) ∧ d.Covers f b.id) →
        e.outcome = .violation) := by
  obtain ⟨f, hf, -, hresources⟩ := exists_found_of_ofDocuments hg
  obtain ⟨e, he, houtcome⟩ := Rules.judge_publicAccessBlockRequired b g
  have hcovered := any_related_iff_covers hf hresources hb hkind
  refine ⟨f, e, hf, he, ⟨fun hpass => ?_, fun h => ?_⟩, fun h => ?_⟩
  · by_contra h
    rw [if_neg (mt hcovered.1 h), hpass] at houtcome
    cases houtcome
  · rw [houtcome, if_pos (hcovered.2 h)]
  · rw [houtcome, if_neg (mt hcovered.1 h)]

/-- Every flag is on, in mixed spellings. -/
def completeProperties : Json :=
  .obj [("bucket", .str "logs"), ("blockPublicAcls", .null), ("block_public_acls", .bool true),
    ("blockPublicPolicy", .bool true), ("ignorePublicAcls", .bool true),
    ("restrict_public_buckets", .bool true)]

def completeBlock : Declaration where
  doc := ⟨.here, 2, some "complete"⟩
  typeToken := "aws:s3/bucketPublicAccessBlock:BucketPublicAccessBlock"
  id := "complete"
  properties := completeProperties
  physicalId := none
  outputs := .obj []

def completeDocument : RawDocument where
  doc := ⟨.here, 2, none⟩
  body := .obj [("type", .str "aws:s3/bucketPublicAccessBlock:BucketPublicAccessBlock"),
    ("name", .str "complete"), ("properties", completeProperties)]

/-- A bucket, a block that refers to it by a further name but has a flag off in its first spelling,
and a complete block. -/
def coveredDocuments : List RawDocument :=
  [{ doc := ⟨.here, 0, none⟩
     body := .obj [("type", .str "aws:s3/bucket:Bucket"), ("name", .str "logs"),
       ("properties", .obj [("bucket", .str "acme-logs")])] },
   { doc := ⟨.here, 1, none⟩
     body := .obj [("type", .str "aws:s3/bucketPublicAccessBlock:BucketPublicAccessBlock"),
       ("name", .str "partial"), ("properties", .obj [("bucket", .str "acme-logs"),
         ("blockPublicAcls", .bool false), ("block_public_acls", .bool true),
         ("blockPublicPolicy", .bool true), ("ignorePublicAcls", .bool true),
         ("restrictPublicBuckets", .bool true)])] },
   completeDocument]

theorem judge_publicAccessBlockRequired_covered :
    ∃ g b e, ofDocuments coveredDocuments .builtin .reject = .ok g ∧ b ∈ g.resources ∧
      b.id = "logs" ∧ b.kind = .bucket ∧ Rules.publicAccessBlockRequired.judge b g = .ok e ∧
      e.outcome = .pass := by
  obtain ⟨g, hg, hresources⟩ : ∃ g, ofDocuments coveredDocuments .builtin .reject = .ok g ∧
      g.resources.map (fun s => (s.id, s.kind)) =
        [("logs", .bucket), ("partial", .accessBlock), ("complete", .accessBlock)] :=
    exists_eq_ok_of_map (by decide +kernel)
  have hmem : ("logs", ResourceKind.bucket) ∈ g.resources.map fun s => (s.id, s.kind) := by
    rw [hresources]
    exact List.mem_cons_self
  obtain ⟨b, hb, hbucket⟩ := List.mem_map.1 hmem
  obtain ⟨hid, hkind⟩ := Prod.mk.inj hbucket
  obtain ⟨f, e, hf, he, hpass, -⟩ := judge_publicAccessBlockRequired_ofDocuments hg hb hkind
  have hnamed : f.named? "logs" = some "logs" := by
    obtain ⟨f', hf', hnamed⟩ : ∃ f',
        coveredDocuments.foldlM (Found.add .builtin .reject) {} = .ok f' ∧
          f'.named? "logs" = some "logs" :=
      exists_eq_ok_of_map (by decide +kernel)
    obtain rfl : f = f' := Except.ok.inj (hf.symm.trans hf')
    exact hnamed
  have hdeclared : Declaration.ofDocument completeDocument = .ok (some completeBlock) :=
    toOption_eq_some_iff.1 (by decide +kernel)
  have hkey : Reference.key "logs" = "logs" := by decide +kernel
  have hcovers : completeBlock.Covers f b.id :=
    ⟨by decide, ⟨"logs", rfl, by rw [hkey, hid, hnamed]⟩, by decide⟩
  have hdocument : completeDocument ∈ coveredDocuments := by simp [coveredDocuments]
  exact ⟨g, b, e, hg, hb, hid, hkind, he, hpass.2 ⟨_, hdocument, _, hdeclared, hcovers⟩⟩

end Graph

end StackAudit
