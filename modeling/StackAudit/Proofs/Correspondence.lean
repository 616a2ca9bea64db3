import StackAudit.Proofs.Declaration
import StackAudit.Proofs.Resolution

/-!
# Documents and their resources

Documents of the deployment engine are left out; every other document has its resource, at the same
place among the others. Reading goes over the documents once and resolving over what was read once
more, and neither loses, repeats nor moves anything.
-/
namespace StackAudit

/-- Whether a document belongs to the deployment engine, by the trimmed text of its type. -/
def RawDocument.isInternal (raw : RawDocument) : Bool :=
  match raw.body.get? "type" with
  | some (.str s) => Text.startsWith "pulumi:" (Text.trim s)
  | _ => false

/-- The resource is the one that the document declares, and knows where it was declared. -/
structure RawDocument.Declares (raw : RawDocument) (r : Resource) : Prop where
  declared : ∃ d, Declaration.ofDocument raw = .ok (some d) ∧ r.id = d.id ∧
    r.typeToken = d.typeToken
  location : r.location = some ⟨raw.doc.source, some raw.doc.index⟩

namespace Declaration

theorem isInternal_eq_of_typed {doc : DocumentRef} {fields : List (String × Json)} {token : String}
    (h : textOf? fields "type" = some token) :
    RawDocument.isInternal ⟨doc, .obj fields⟩ = isInternal token := by
  obtain ⟨v, hv, hvtoken⟩ := Option.bind_eq_some_iff.1 h
  obtain ⟨s, hs, htoken⟩ := Option.bind_eq_some_iff.1 hvtoken
  have htrim : Text.trim s = token := by
    unfold Text.trimmed? at htoken
    split at htoken
    · cases htoken
    · exact Option.some.inj htoken
  have hget : (Json.obj fields).get? "type" = some (.str s) := by
    cases v <;> simp_all [Json.asStr?, Json.get?, Json.asObj?]
  simp only [RawDocument.isInternal, hget, htrim, isInternal]

theorem isInternal_eq_false_of_untyped {doc : DocumentRef} {fields : List (String × Json)}
    (h : textOf? fields "type" = none) : RawDocument.isInternal ⟨doc, .obj fields⟩ = false := by
  unfold RawDocument.isInternal
  split
  · rename_i s hs
    change fields.lookup "type" = some (.str s) at hs
    have hblank : Text.trim s = "" := by
      simpa [textOf?, hs, Json.nonBlank?, Json.asStr?, Text.trimmed?] using h
    rw [hblank]
    rfl
  · rfl

/-- A document that can be read declares nothing only when it belongs to the deployment engine. -/
theorem isSome_of_ofDocument {raw : RawDocument} {d : Option Declaration}
    (h : ofDocument raw = .ok d) : d.isSome = !raw.isInternal := by
  obtain ⟨doc, body⟩ := raw
  cases body with
  | obj fields =>
    cases htype : textOf? fields "type" with
    | none =>
      rw [ofDocument_of_untyped htype, map_eq_ok_iff] at h
      obtain ⟨d, -, rfl⟩ := h
      rw [isInternal_eq_false_of_untyped htype]
      rfl
    | some token =>
      rw [ofDocument_of_typed htype] at h
      rw [isInternal_eq_of_typed htype]
      by_cases hinternal : isInternal token = true
      · rw [if_pos hinternal] at h
        cases h
        rw [hinternal]
        rfl
      · rw [if_neg hinternal, map_eq_ok_iff] at h
        obtain ⟨d, -, rfl⟩ := h
        simp [hinternal]
  | _ => cases h

end Declaration

namespace Assembly

variable {registry : AdapterRegistry} {unknown : UnknownKinds} {docs : List RawDocument}

theorem isSome_of_readDocument {raw : RawDocument} {e : Option Entry}
    (h : readDocument registry unknown raw = .ok e) : e.isSome = !raw.isInternal := by
  obtain ⟨d, hd, h⟩ := bind_eq_ok_iff.1 h
  rw [← Declaration.isSome_of_ofDocument hd]
  cases d with
  | none =>
    cases h
    rfl
  | some d =>
    obtain ⟨a, -, h⟩ := bind_eq_ok_iff.1 h
    cases h
    rfl

/-- What was found stands in the order of the documents that it comes from. -/
theorem Found.forall₂_adapted {f : Found} (hf : docs.foldlM (add registry unknown) {} = .ok f) :
    List.Forall₂ (fun raw e => ∃ d, Declaration.ofDocument raw = .ok (some d) ∧
        adapt registry unknown d = .ok e.2 ∧ e.1 = d.doc)
      (docs.filter fun raw => !raw.isInternal) f.adapted := by
  obtain ⟨es, hes, -, rfl⟩ := foldlM_add_eq_ok_iff.1 hf
  simp only [extend, List.nil_append, List.forall₂_map_right_iff]
  refine (forall₂_filterMap_of_mapM hes fun _ _ => isSome_of_readDocument).imp fun raw e he => ?_
  obtain ⟨d, hd, ha, -, hdoc⟩ := readDocument_eq_ok_some_iff.1 he
  exact ⟨d, hd, ha, hdoc⟩

end Assembly

namespace Graph

open Assembly

/-- A graph holds one resource for each document that is not internal to the deployment engine, in
the order of the documents. No two of them share an id, and every one is found again by its id. -/
theorem ofDocuments_corresponds {docs : List RawDocument} {unknown : UnknownKinds} {g : Graph}
    (hg : ofDocuments docs .builtin unknown = .ok g) :
    List.Forall₂ RawDocument.Declares (docs.filter fun raw => !raw.isInternal) g.resources ∧
      (g.resources.map Resource.id).Nodup ∧
      ∀ id r, g.get? id = some r ↔ r ∈ g.resources ∧ r.id = id := by
  obtain ⟨f, hf, -, hresources⟩ := exists_found_of_ofDocuments hg
  refine ⟨?_, g.nodup, fun _ _ => get?_eq_some_iff⟩
  rw [hresources, List.forall₂_map_right_iff]
  refine (Found.forall₂_adapted hf).imp fun raw e he => ?_
  obtain ⟨d, hd, ha, hdoc⟩ := he
  obtain ⟨hsource, hindex⟩ := Declaration.samePlace_of_ofDocument hd
  refine ⟨⟨d, hd, id_of_adapt_builtin ha, typeToken_of_adapt_builtin ha⟩, ?_⟩
  rw [Found.resolved, hdoc, hsource, hindex]

/-- A provider of the deployment engine between a bucket and a document of unknown kind. -/
def interleavedDocuments : List RawDocument :=
  [{ doc := ⟨.here, 0, none⟩
     body := .obj [("type", .str "aws:s3/bucket:Bucket"), ("name", .str "logs")] },
   { doc := ⟨.here, 1, none⟩
     body := .obj [("type", .str " pulumi:providers:aws"), ("name", .str "default")] },
   { doc := ⟨.here, 2, none⟩
     body := .obj [("type", .str "aws:sqs/queue:Queue"), ("name", .str "jobs")] }]

theorem ofDocuments_corresponds_interleaved :
    ∃ g, ofDocuments interleavedDocuments .builtin .passthrough = .ok g ∧
      g.resources.map (fun r => (r.id, r.location)) =
        [("logs", some ⟨.here, some 0⟩), ("jobs", some ⟨.here, some 2⟩)] ∧
      List.Forall₂ RawDocument.Declares
        (interleavedDocuments.filter fun raw => !raw.isInternal) g.resources ∧
      ∃ r, g.get? "jobs" = some r ∧ r.location = some ⟨.here, some 2⟩ := by
  obtain ⟨g, hg, hplaces⟩ : ∃ g, ofDocuments interleavedDocuments .builtin .passthrough = .ok g ∧
      g.resources.map (fun r => (r.id, r.location)) =
        [("logs", some ⟨.here, some 0⟩), ("jobs", some ⟨.here, some 2⟩)] :=
    exists_eq_ok_of_map (by decide +kernel)
  obtain ⟨hdeclares, -, hlookup⟩ := ofDocuments_corresponds hg
  have hjobs : ("jobs", some ⟨.here, some 2⟩) ∈
      g.resources.map fun r => (r.id, r.location) := by
    rw [hplaces]
    exact List.mem_cons_of_mem _ List.mem_cons_self
  obtain ⟨r, hr, hrjobs⟩ := List.mem_map.1 hjobs
  obtain ⟨hid, hlocation⟩ := Prod.ext_iff.1 hrjobs
  exact ⟨g, hg, hplaces, hdeclares, r, (hlookup _ _).2 ⟨hr, hid⟩, hlocation⟩

end Graph

end StackAudit
