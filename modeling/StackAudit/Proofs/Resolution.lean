import Mathlib.Data.List.Induction
import StackAudit.Proofs.Adapters
import StackAudit.Proofs.Assembly

/-!
# Which resource a reference names

A reference names a resource by its id, or else by a further name that this resource alone has. The
table of owners is filled one name after the other and does not count beyond two, but that is enough
to tell the only owner of a name. So references resolve exactly as they should, and the first one
that names nothing is the error.
-/
namespace StackAudit.Assembly

namespace Found

/-- The ids of the resources, in document order. -/
def resourceIds (f : Found) : List String := f.adapted.map (·.2.resource.id)

/-- The ids of the resources that have a further name, in document order. -/
def holders (f : Found) (name : String) : List String :=
  (f.adapted.filter fun e => name ∈ e.2.aliases).map (·.2.resource.id)

/-- What a key names: the resource with this id, or else the only one that has it as a further
name. -/
def named? (f : Found) (k : String) : Option String :=
  if k ∈ f.resourceIds then some k
  else match f.holders k with
    | [id] => some id
    | _ => none

theorem mem_resourceIds_of_named? {f : Found} {k id : String} (h : f.named? k = some id) :
    id ∈ f.resourceIds := by
  unfold named? at h
  split at h
  · rename_i hk
    exact Option.some.inj h ▸ hk
  · split at h
    · rename_i holder hholders
      have hid : id ∈ f.holders k := by simp [hholders, Option.some.inj h]
      obtain ⟨e, he, rfl⟩ := List.mem_map.1 hid
      exact List.mem_map_of_mem (List.mem_of_mem_filter he)
    · cases h

/-- What the built-in adapters leave behind: the ids are those of the resources, no two of them
equal; no resource has a name twice, and none has relations yet. -/
structure Sound (f : Found) : Prop where
  contains_ids : ∀ k, f.ids.contains k = true ↔ k ∈ f.resourceIds
  nodup_ids : f.resourceIds.Nodup
  nodup_aliases : ∀ e ∈ f.adapted, e.2.aliases.Nodup
  unrelated : ∀ e ∈ f.adapted, e.2.resource.relations = ∅

end Found

theorem readDocument_eq_ok_some_iff {registry : AdapterRegistry} {unknown : UnknownKinds}
    {raw : RawDocument} {e : Entry} :
    readDocument registry unknown raw = .ok (some e) ↔
      ∃ d, Declaration.ofDocument raw = .ok (some d) ∧ adapt registry unknown d = .ok e.2.2 ∧
        e.1 = d.id ∧ e.2.1 = d.doc := by
  obtain ⟨id, doc, a⟩ := e
  unfold readDocument
  rw [bind_eq_ok_iff]
  constructor
  · rintro ⟨d, hd, h⟩
    cases d with
    | none => cases h
    | some d =>
      obtain ⟨a', ha', h⟩ := bind_eq_ok_iff.1 h
      cases h
      exact ⟨d, hd, ha', rfl, rfl⟩
  · rintro ⟨d, hd, ha, rfl, rfl⟩
    exact ⟨some d, hd, bind_eq_ok_iff.2 ⟨a, ha, rfl⟩⟩

namespace Found

variable {registry : AdapterRegistry} {unknown : UnknownKinds} {docs : List RawDocument} {f : Found}

/-- What was found comes from the declarations of the documents, each adapted by itself. -/
theorem mem_adapted_iff (hf : docs.foldlM (add registry unknown) {} = .ok f)
    {e : DocumentRef × Adapted} :
    e ∈ f.adapted ↔ ∃ raw ∈ docs, ∃ d, Declaration.ofDocument raw = .ok (some d) ∧
      adapt registry unknown d = .ok e.2 ∧ e.1 = d.doc := by
  obtain ⟨es, hes, -, rfl⟩ := foldlM_add_eq_ok_iff.1 hf
  have hmem (entry : Entry) : some entry ∈ es ↔ ∃ raw ∈ docs, ∃ d,
      Declaration.ofDocument raw = .ok (some d) ∧ adapt registry unknown d = .ok entry.2.2 ∧
        entry.1 = d.id ∧ entry.2.1 = d.doc := by
    rw [mem_iff_of_mapM_eq_ok hes]
    simp only [readDocument_eq_ok_some_iff]
  simp only [extend, List.nil_append, List.mem_map, List.mem_filterMap, id, exists_eq_right, hmem]
  constructor
  · rintro ⟨entry, ⟨raw, hraw, d, hd, ha, -, hdoc⟩, rfl⟩
    exact ⟨raw, hraw, d, hd, ha, hdoc⟩
  · rintro ⟨raw, hraw, d, hd, ha, hdoc⟩
    exact ⟨(d.id, e), ⟨raw, hraw, d, hd, ha, rfl, hdoc⟩, rfl⟩

theorem exists_mem_adapted (hf : docs.foldlM (add registry unknown) {} = .ok f)
    {raw : RawDocument} (hraw : raw ∈ docs) {d : Declaration}
    (hd : Declaration.ofDocument raw = .ok (some d)) :
    ∃ a, adapt registry unknown d = .ok a ∧ (d.doc, a) ∈ f.adapted := by
  obtain ⟨es, hes, -⟩ := foldlM_add_eq_ok_iff.1 hf
  obtain ⟨e, he⟩ := exists_of_mem_of_mapM_eq_ok hes hraw
  rw [readDocument, hd] at he
  obtain ⟨_, ⟨⟩, he⟩ := bind_eq_ok_iff.1 he
  obtain ⟨a, ha, -⟩ := bind_eq_ok_iff.1 he
  exact ⟨a, ha, (mem_adapted_iff hf).2 ⟨raw, hraw, d, hd, ha, rfl⟩⟩

theorem sound_of_foldlM_add (hf : docs.foldlM (add .builtin unknown) {} = .ok f) : f.Sound := by
  have hadapted := @mem_adapted_iff _ _ _ _ hf
  have hids : ∃ ids : List String, ids.Nodup ∧ f.ids = ids.foldl KeySet.add ∅ ∧
      f.resourceIds = ids := by
    obtain ⟨es, hes, ⟨hnodup, -⟩, rfl⟩ := foldlM_add_eq_ok_iff.1 hf
    -- The declared ids were checked; the adapters make them the ids of the resources.
    refine ⟨_, hnodup, rfl, ?_⟩
    simp only [resourceIds, extend, List.nil_append, List.map_map]
    apply List.map_congr_left
    intro entry hentry
    have hread : some entry ∈ es := by simpa using hentry
    obtain ⟨raw, -, hread⟩ := (mem_iff_of_mapM_eq_ok hes).1 hread
    obtain ⟨d, -, ha, hid, -⟩ := readDocument_eq_ok_some_iff.1 hread
    exact (id_of_adapt_builtin ha).trans hid.symm
  obtain ⟨ids, hnodup, hset, hresourceIds⟩ := hids
  refine ⟨fun k => ?_, hresourceIds ▸ hnodup, fun e he => ?_, fun e he => ?_⟩
  · rw [hset, hresourceIds, KeySet.contains_foldl_add]
    simp [KeyMap.contains]
  · obtain ⟨raw, -, d, -, ha, -⟩ := hadapted.1 he
    exact nodup_aliases_of_adapt_builtin ha
  · obtain ⟨raw, -, d, -, ha, -⟩ := hadapted.1 he
    obtain ⟨kind, properties, hresource⟩ := resource_of_adapt_builtin ha
    rw [hresource]
    rfl

end Found

/-! ### The table of owners -/

/-- What the table of owners holds for a name that was noted for these resources in turn. -/
def noteOf : List String → Option (Option String)
  | [] => none
  | [id] => some (some id)
  | _ => some none

theorem noteOf_concat (owners : List String) (id : String) :
    noteOf (owners ++ [id]) = if (noteOf owners).isSome then some none else some (some id) := by
  rcases owners with _ | ⟨_, _ | ⟨_, _⟩⟩ <;> rfl

theorem get?_noteAlias {ids : KeySet} {k : String} (hk : ids.contains k = false)
    (owners : KeyMap (Option String)) (id name : String) :
    (noteAlias ids id owners name).get? k =
      if name = k then (if owners.contains k then some none else some (some id))
      else owners.get? k := by
  unfold noteAlias
  by_cases hname : name = k
  · subst hname
    rw [if_neg (by simp [hk]), if_pos rfl]
    split <;> simp
  · rw [if_neg hname]
    have hne : k ≠ name := fun h => hname h.symm
    split
    · rfl
    · split <;> simp [KeyMap.get?_insert, hne]

/-- The table holds for a name what the resources make of it that were noted under it. -/
theorem get?_foldl_noteAlias {ids : KeySet} {k : String} (hk : ids.contains k = false)
    (l : List (String × String)) :
    (l.foldl (fun m o => noteAlias ids o.1 m o.2) ∅).get? k =
      noteOf ((l.filter (·.2 = k)).map Prod.fst) := by
  -- The last name that is noted meets a table for all the others.
  induction l using List.reverseRecOn with
  | nil => rfl
  | append_singleton l o ih =>
    rw [List.foldl_append, List.foldl_cons, List.foldl_nil, get?_noteAlias hk, List.filter_append,
      KeyMap.contains, ih]
    by_cases ho : o.2 = k
    · rw [if_pos ho, List.filter_cons_of_pos (by simpa using ho), List.filter_nil, List.map_append,
        List.map_singleton, noteOf_concat]
    · rw [if_neg ho, List.filter_cons_of_neg (by simpa using ho), List.filter_nil, List.append_nil]

namespace Found

variable {f : Found}

/-- Where no resource has a name twice, the notes of a name are the resources that have it. -/
theorem notes_eq_holders (hn : ∀ e ∈ f.adapted, e.2.aliases.Nodup) (k : String) :
    (((f.adapted.flatMap fun e => e.2.aliases.map (e.2.resource.id, ·)).filter
      (·.2 = k)).map Prod.fst) = f.holders k := by
  unfold holders
  generalize f.adapted = l at hn
  induction l with
  | nil => rfl
  | cons e l ih =>
    have hown : ((e.2.aliases.map (e.2.resource.id, ·)).filter (·.2 = k)).map Prod.fst =
        if k ∈ e.2.aliases then [e.2.resource.id] else [] := by
      have hcount := (hn e List.mem_cons_self).count (a := k)
      simp only [List.filter_map, List.map_map, Function.comp_def, List.filter_eq, hcount]
      split <;> rfl
    rw [List.flatMap_cons, List.filter_append, List.map_append, hown,
      ih fun e' he' => hn e' (List.mem_cons_of_mem _ he'), List.filter_cons]
    by_cases hk : k ∈ e.2.aliases <;> simp [hk]

/-- A reference resolves to what its key names. -/
theorem target?_eq_named? (hf : f.Sound) (reference : String) :
    target? f.ids f.owners reference = f.named? (Reference.key reference) := by
  unfold target? named?
  generalize Reference.key reference = k
  by_cases hk : k ∈ f.resourceIds
  · simp only [if_pos hk, if_pos ((hf.contains_ids k).2 hk)]
  · have hids : f.ids.contains k = false := by
      rw [← Bool.not_eq_true, hf.contains_ids]
      exact hk
    rw [if_neg hk, if_neg (by simp [hids]), owners_eq_foldl, get?_foldl_noteAlias hids,
      notes_eq_holders hf.nodup_aliases]
    rcases f.holders k with _ | ⟨id, _ | ⟨id', r⟩⟩ <;> rfl

/-! ### Resources with their relations -/

/-- Whether a reference names no resource. -/
def dangles (f : Found) (reference : String) : Bool := (f.named? (Reference.key reference)).isNone

def danglingOf (f : Found) (e : DocumentRef × Adapted) : List (DocumentRef × String) :=
  (e.2.references.filter f.dangles).map (e.1, ·)

/-- The references that name no resource, in document order. -/
def dangling (f : Found) : List (DocumentRef × String) := f.adapted.flatMap f.danglingOf

def faults (l : List (DocumentRef × String)) : List Malformed :=
  l.map fun x => .danglingRelation x.1 x.2

/-- The targets of the references of a document, without the resource itself. -/
def targetsOf (f : Found) (e : DocumentRef × Adapted) : List String :=
  (e.2.references.filterMap (f.named? <| Reference.key ·)).filter (· ≠ e.2.resource.id)

/-- The resource of a document, with its targets as relations and with its place. -/
def resolved (f : Found) (e : DocumentRef × Adapted) : Resource :=
  { e.2.resource with
    relations := KeySet.ofList (f.targetsOf e)
    location := some ⟨e.1.source, some e.1.index⟩ }

theorem mem_dangling_iff {doc : DocumentRef} {reference : String} :
    (doc, reference) ∈ f.dangling ↔
      ∃ e ∈ f.adapted, e.1 = doc ∧ reference ∈ e.2.references ∧
        f.named? (Reference.key reference) = none := by
  simp only [dangling, danglingOf, dangles, List.mem_flatMap, List.mem_map, List.mem_filter,
    Option.isNone_iff_eq_none, Prod.mk.injEq]
  constructor
  · rintro ⟨e, he, r, ⟨hr, hnone⟩, hdoc, rfl⟩
    exact ⟨e, he, hdoc, hr, hnone⟩
  · rintro ⟨e, he, hdoc, hr, hnone⟩
    exact ⟨e, he, reference, ⟨hr, hnone⟩, hdoc, rfl⟩

theorem dangling_eq_nil_iff : f.dangling = [] ↔ ∀ e ∈ f.adapted, ∀ reference ∈ e.2.references,
    f.named? (Reference.key reference) ≠ none := by
  rw [List.eq_nil_iff_forall_not_mem]
  constructor
  · intro h e he reference hreference hnamed
    exact h (e.1, reference) (mem_dangling_iff.2 ⟨e, he, rfl, hreference, hnamed⟩)
  · rintro h ⟨doc, reference⟩ hmem
    obtain ⟨e, he, -, hreference, hnamed⟩ := mem_dangling_iff.1 hmem
    exact h e he reference hreference hnamed

theorem contains_relations_resolved {e : DocumentRef × Adapted} {id : String} :
    (f.resolved e).relations.contains id = true ↔
      id ≠ e.2.resource.id ∧ ∃ reference ∈ e.2.references,
        f.named? (Reference.key reference) = some id := by
  rw [resolved, KeySet.ofList, KeySet.contains_foldl_add]
  simp [targetsOf, KeyMap.contains, and_comm]

/-- Relating a resource to its targets, one reference after the other. -/
theorem foldlM_relate (hf : f.Sound) (doc : DocumentRef) (references : List String)
    (r : Resource) :
    references.foldlM (relate f.ids f.owners doc) r =
      okUnless (faults ((references.filter f.dangles).map (doc, ·))) { r with
        relations := ((references.filterMap (f.named? <| Reference.key ·)).filter
          (· ≠ r.id)).foldl KeySet.add r.relations } := by
  induction references generalizing r with
  | nil => rfl
  | cons reference references ih =>
    rw [List.foldlM_cons, relate, target?_eq_named? hf]
    cases htarget : f.named? (Reference.key reference) with
    | none =>
      rw [List.filter_cons_of_pos (by simp [dangles, htarget])]
      rfl
    | some id =>
      rw [List.filter_cons_of_neg (by simp [dangles, htarget]), List.filterMap_cons, htarget]
      change references.foldlM (relate f.ids f.owners doc)
        (if id = r.id then r else { r with relations := r.relations.add id }) = _
      rw [ih]
      by_cases hid : id = r.id
      · simp [hid]
      · simp [hid]

/-- A document gives its resource with all relations, or fails with its first reference that names
no resource. -/
theorem resource_eq_okUnless (hf : f.Sound) {e : DocumentRef × Adapted} (he : e ∈ f.adapted) :
    f.resource f.owners e = okUnless (faults (f.danglingOf e)) (f.resolved e) := by
  rw [resource, foldlM_relate hf, hf.unrelated e he, danglingOf, resolved, targetsOf, KeySet.ofList]
  cases faults ((e.2.references.filter f.dangles).map (e.1, ·)) <;> rfl

theorem mapM_resource_eq (hf : f.Sound) :
    f.adapted.mapM (f.resource f.owners) =
      okUnless (faults f.dangling) (f.adapted.map f.resolved) := by
  have hfaults : faults f.dangling = f.adapted.flatMap fun e => faults (f.danglingOf e) := by
    simp only [faults, dangling, List.map_flatMap]
  rw [mapM_eq_okUnless fun e he => resource_eq_okUnless hf he, hfaults]

/-- The resources with their relations make up a graph. -/
theorem exists_ofResources_resolved (hf : f.Sound) :
    ∃ g, Graph.ofResources (f.adapted.map f.resolved) = .ok g ∧
      g.resources = f.adapted.map f.resolved := by
  have hids : (f.adapted.map f.resolved).map Resource.id = f.resourceIds := by
    rw [List.map_map]
    rfl
  have hclosed : Graph.Closed (f.adapted.map f.resolved) := by
    intro r hr target htarget
    obtain ⟨e, -, rfl⟩ := List.mem_map.1 hr
    rw [KeySet.mem_toList_iff, contains_relations_resolved] at htarget
    obtain ⟨-, reference, -, hnamed⟩ := htarget
    have hmem := mem_resourceIds_of_named? hnamed
    rw [← hids] at hmem
    exact List.mem_map.1 hmem
  obtain ⟨g, hg⟩ := Graph.exists_ofResources_iff.2 ⟨hids ▸ hf.nodup_ids, hclosed⟩
  exact ⟨g, hg, Graph.resources_of_ofResources hg⟩

end Found

end StackAudit.Assembly

namespace StackAudit.Graph

open Assembly

variable {unknown : UnknownKinds} {docs : List RawDocument} {f : Found}

/-- The first reference that names no resource is the error of the whole list. -/
theorem ofDocuments_of_dangling (hf : docs.foldlM (Found.add .builtin unknown) {} = .ok f)
    {x : DocumentRef × String} {r : List (DocumentRef × String)} (hx : f.dangling = x :: r) :
    ofDocuments docs .builtin unknown = .error (.danglingRelation x.1 x.2) := by
  rw [ofDocuments, hf]
  change (f.adapted.mapM (f.resource f.owners) >>= _) = _
  rw [Found.mapM_resource_eq (Found.sound_of_foldlM_add hf), hx]
  rfl

/-- Where every reference names a resource there is a graph, and it holds each resource with the
targets of its references. -/
theorem ofDocuments_of_not_dangling (hf : docs.foldlM (Found.add .builtin unknown) {} = .ok f)
    (hnone : f.dangling = []) :
    ∃ g, ofDocuments docs .builtin unknown = .ok g ∧ g.resources = f.adapted.map f.resolved := by
  have hsound := Found.sound_of_foldlM_add hf
  obtain ⟨g, hg, hresources⟩ := Found.exists_ofResources_resolved hsound
  refine ⟨g, ?_, hresources⟩
  rw [ofDocuments, hf]
  change (f.adapted.mapM (f.resource f.owners) >>= _) = _
  rw [Found.mapM_resource_eq hsound, hnone]
  change (ofResources (f.adapted.map f.resolved)).mapError Malformed.graph = .ok g
  rw [hg]
  rfl

theorem ofDocuments_eq_danglingRelation_iff
    (hf : docs.foldlM (Found.add .builtin unknown) {} = .ok f) {doc : DocumentRef}
    {reference : String} :
    ofDocuments docs .builtin unknown = .error (.danglingRelation doc reference) ↔
      f.dangling.head? = some (doc, reference) := by
  cases hd : f.dangling with
  | nil =>
    obtain ⟨g, hg, -⟩ := ofDocuments_of_not_dangling hf hd
    simp [hg]
  | cons x r =>
    rw [ofDocuments_of_dangling hf hd]
    simp [Prod.ext_iff]

/-- A graph comes from documents all of whose references name a resource. -/
theorem exists_found_of_ofDocuments {g : Graph} (hg : ofDocuments docs .builtin unknown = .ok g) :
    ∃ f, docs.foldlM (Found.add .builtin unknown) {} = .ok f ∧ f.dangling = [] ∧
      g.resources = f.adapted.map f.resolved := by
  obtain ⟨f, hf, -⟩ := bind_eq_ok_iff.1 hg
  refine ⟨f, hf, ?_⟩
  cases hd : f.dangling with
  | cons x r =>
    rw [ofDocuments_of_dangling hf hd] at hg
    cases hg
  | nil =>
    obtain ⟨g', hg', hresources⟩ := ofDocuments_of_not_dangling hf hd
    obtain rfl : g = g' := Except.ok.inj (hg.symm.trans hg')
    exact ⟨rfl, hresources⟩

/-- Every declaration has its resource in the graph. -/
theorem exists_resource_of_declared {g : Graph} (hg : ofDocuments docs .builtin unknown = .ok g)
    {raw : RawDocument} (hraw : raw ∈ docs) {d : Declaration}
    (hd : Declaration.ofDocument raw = .ok (some d)) :
    ∃ r ∈ g.resources, r.id = d.id ∧ r.typeToken = d.typeToken ∧
      r.location = some ⟨d.doc.source, some d.doc.index⟩ := by
  obtain ⟨f, hf, -, hresources⟩ := exists_found_of_ofDocuments hg
  obtain ⟨a, ha, hmem⟩ := Found.exists_mem_adapted hf hraw hd
  exact ⟨f.resolved (d.doc, a), hresources ▸ List.mem_map_of_mem hmem, id_of_adapt_builtin ha,
    typeToken_of_adapt_builtin ha, rfl⟩

/-- Once all documents are read, every reference resolves to the resource that its key names. If one
names none, the first of these in document order is the error; otherwise there is a graph in which
the relations of every resource are the targets of its references without the resource itself. -/
theorem ofDocuments_resolves (hf : docs.foldlM (Found.add .builtin unknown) {} = .ok f) :
    (∀ reference, target? f.ids f.owners reference = f.named? (Reference.key reference)) ∧
    ((∃ doc reference, ofDocuments docs .builtin unknown =
        .error (.danglingRelation doc reference)) ↔
      ∃ e ∈ f.adapted, ∃ reference ∈ e.2.references,
        f.named? (Reference.key reference) = none) ∧
    (∀ doc reference, ofDocuments docs .builtin unknown =
        .error (.danglingRelation doc reference) ↔ f.dangling.head? = some (doc, reference)) ∧
    ((∀ e ∈ f.adapted, ∀ reference ∈ e.2.references,
        f.named? (Reference.key reference) ≠ none) →
      ∃ g, ofDocuments docs .builtin unknown = .ok g ∧
        List.Forall₂ (fun e s => s.id = e.2.resource.id ∧ ∀ id,
          s.relations.contains id = true ↔ id ≠ s.id ∧ ∃ reference ∈ e.2.references,
            f.named? (Reference.key reference) = some id) f.adapted g.resources) := by
  have hdangling : f.dangling ≠ [] ↔ ∃ e ∈ f.adapted, ∃ reference ∈ e.2.references,
      f.named? (Reference.key reference) = none := by
    simp only [ne_eq, Found.dangling_eq_nil_iff, not_forall, not_not, exists_prop]
  refine ⟨Found.target?_eq_named? (Found.sound_of_foldlM_add hf), ?_,
    fun _ _ => ofDocuments_eq_danglingRelation_iff hf, fun hall => ?_⟩
  · simp only [ofDocuments_eq_danglingRelation_iff hf]
    rw [← hdangling]
    cases f.dangling with
    | nil => simp
    | cons x r => simpa using ⟨x.1, x.2, rfl⟩
  · obtain ⟨g, hg, hresources⟩ :=
      ofDocuments_of_not_dangling hf (Found.dangling_eq_nil_iff.2 hall)
    refine ⟨g, hg, ?_⟩
    rw [hresources, List.forall₂_map_right_iff, List.forall₂_same]
    exact fun e _ => ⟨rfl, fun id => Found.contains_relations_resolved⟩

/-- Two buckets with a name in common, one of which also has the id of the other one as a name, and
a block that refers to each of these names. -/
def sharedNameDocuments : List RawDocument :=
  [{ doc := ⟨.here, 0, none⟩
     body := .obj [("type", .str "aws:s3/bucket:Bucket"), ("name", .str "logs"),
       ("properties", .obj [("bucket", .str "shared")])] },
   { doc := ⟨.here, 1, none⟩
     body := .obj [("type", .str "aws:s3/bucket:Bucket"), ("name", .str "data"),
       ("id", .str "logs"), ("properties", .obj [("bucket", .str "shared")])] },
   { doc := ⟨.here, 2, none⟩
     body := .obj [("type", .str "aws:s3/bucketPublicAccessBlock:BucketPublicAccessBlock"),
       ("name", .str "first"), ("properties", .obj [("bucket", .str "$\x7blogs.id\x7d")])] },
   { doc := ⟨.here, 3, none⟩
     body := .obj [("type", .str "aws:s3/bucketPublicAccessBlock:BucketPublicAccessBlock"),
       ("name", .str "second"), ("properties", .obj [("bucket", .str "shared")])] }]

theorem ofDocuments_resolves_shared :
    ∃ f, sharedNameDocuments.foldlM (Found.add .builtin .reject) {} = .ok f ∧
      f.holders "logs" = ["data"] ∧ f.holders "shared" = ["logs", "data"] ∧
      target? f.ids f.owners "$\x7blogs.id\x7d" = some "logs" ∧
      ofDocuments sharedNameDocuments .builtin .reject =
        .error (.danglingRelation ⟨.here, 3, some "second"⟩ "shared") := by
  obtain ⟨f, hf, hfacts⟩ : ∃ f,
      sharedNameDocuments.foldlM (Found.add .builtin .reject) {} = .ok f ∧
        (f.holders "logs", f.holders "shared",
          f.named? (Reference.key "$\x7blogs.id\x7d"), f.dangling) =
        (["data"], ["logs", "data"], some "logs", [(⟨.here, 3, some "second"⟩, "shared")]) :=
    exists_eq_ok_of_map (by decide +kernel)
  simp only [Prod.mk.injEq] at hfacts
  obtain ⟨hlogs, hshared, hnamed, hdangling⟩ := hfacts
  obtain ⟨htarget, -, herror, -⟩ := ofDocuments_resolves hf
  refine ⟨f, hf, hlogs, hshared, (htarget _).trans hnamed, (herror _ _).2 ?_⟩
  rw [hdangling]
  rfl

end StackAudit.Graph
