import StackAudit.Proofs.AdapterFaults
import StackAudit.Proofs.Declaration
import StackAudit.Proofs.Resolution

/-!
# The document at fault

Documents are read in order, so the first one with a fault decides the error, whatever stands behind
it. References are followed only when no document has a fault of its own. In both cases the error
names one of the documents: the last check, of the resources as a whole, never finds anything.
-/
namespace StackAudit

/-- Whether the error is about one document, and not about how it fits to the others. -/
def Malformed.isLocal : Malformed → Bool
  | .missingKind _ => true
  | .unknownKind _ _ => true
  | .missingIdentity _ => true
  | .duplicateId _ _ => true
  | .invalidShape _ _ _ => true
  | .badText _ _ => false
  | .danglingRelation _ _ => false
  | .graph _ => false

namespace Assembly

/-- The id that a document declares. -/
def declaredId? (raw : RawDocument) : Option String :=
  match Declaration.ofDocument raw with
  | .ok (some d) => some d.id
  | _ => none

/-- The ids that documents declare, in their order. -/
def declaredIds (docs : List RawDocument) : List String := docs.filterMap declaredId?

/-- What is wrong with a document that stands behind others: it cannot be read, its id is taken, or
its type or a property is not accepted. A taken id is noticed before the type and the properties. -/
inductive Offends (registry : AdapterRegistry) (unknown : UnknownKinds)
    (before : List RawDocument) (raw : RawDocument) : Malformed → Prop where
  | unread {e : Malformed} (h : Declaration.ofDocument raw = .error e) :
    Offends registry unknown before raw e
  | repeated {d : Declaration} (h : Declaration.ofDocument raw = .ok (some d))
    (hid : d.id ∈ declaredIds before) :
    Offends registry unknown before raw (.duplicateId d.doc d.id)
  | refused {d : Declaration} {e : Malformed} (h : Declaration.ofDocument raw = .ok (some d))
    (hid : d.id ∉ declaredIds before) (ha : adapt registry unknown d = .error e) :
    Offends registry unknown before raw e

/-- No document has a fault. -/
def Clean (registry : AdapterRegistry) (unknown : UnknownKinds) (docs : List RawDocument) : Prop :=
  ∀ before raw after, docs = before ++ raw :: after →
    ∀ e, ¬Offends registry unknown before raw e

variable {registry : AdapterRegistry} {unknown : UnknownKinds}

theorem declaredId?_of_readDocument {raw : RawDocument} {e : Option Entry}
    (h : readDocument registry unknown raw = .ok e) : declaredId? raw = e.map Prod.fst := by
  unfold readDocument at h
  unfold declaredId?
  obtain ⟨d, hd, h⟩ := bind_eq_ok_iff.1 h
  rw [hd]
  cases d with
  | none =>
    cases h
    rfl
  | some d =>
    obtain ⟨a, -, h⟩ := bind_eq_ok_iff.1 h
    cases h
    rfl

theorem declaredIds_of_mapM {docs : List RawDocument} {es : List (Option Entry)}
    (h : docs.mapM (readDocument registry unknown) = .ok es) :
    declaredIds docs = (es.filterMap id).map Prod.fst := by
  have hread := mapM_eq_ok_iff.1 h
  clear h
  induction hread with
  | nil => rfl
  | @cons raw e docs es he _ ih =>
    rw [declaredIds, List.filterMap_cons, declaredId?_of_readDocument he]
    cases e with
    | none => exact ih
    | some e => exact congrArg (e.1 :: ·) ih

namespace Found

variable {docs before : List RawDocument} {f : Found} {e : Malformed}

theorem contains_ids_iff (hf : docs.foldlM (add registry unknown) {} = .ok f) {k : String} :
    f.ids.contains k = true ↔ k ∈ declaredIds docs := by
  obtain ⟨es, hes, -, rfl⟩ := foldlM_add_eq_ok_iff.1 hf
  rw [declaredIds_of_mapM hes, extend, KeySet.contains_foldl_add]
  simp [KeyMap.contains]

/-- One more document is refused exactly for what is wrong with it. -/
theorem add_eq_error_iff (hf : before.foldlM (add registry unknown) {} = .ok f)
    {raw : RawDocument} :
    f.add registry unknown raw = .error e ↔ Offends registry unknown before raw e := by
  constructor
  · intro h
    rcases bind_eq_error_iff.1 h with h | ⟨d, hd, h⟩
    · exact .unread h
    · cases d with
      | none => cases h
      | some d =>
        by_cases hid : f.ids.contains d.id = true
        · simp only [if_pos hid] at h
          cases h
          exact .repeated hd ((contains_ids_iff hf).1 hid)
        · simp only [if_neg hid] at h
          rcases bind_eq_error_iff.1 h with h | ⟨a, -, h⟩
          · exact .refused hd (mt (contains_ids_iff hf).2 hid) h
          · cases h
  · intro h
    cases h with
    | unread h => exact bind_eq_error_iff.2 (.inl h)
    | repeated h hid =>
      refine bind_eq_error_iff.2 (.inr ⟨_, h, ?_⟩)
      exact if_pos ((contains_ids_iff hf).2 hid)
    | refused h hid ha =>
      refine bind_eq_error_iff.2 (.inr ⟨_, h, ?_⟩)
      refine (if_neg (mt (contains_ids_iff hf).1 hid)).trans ?_
      exact bind_eq_error_iff.2 (.inl ha)

/-- Documents without a fault are all taken. -/
theorem clean_iff : Clean registry unknown docs ↔
    ∃ f, docs.foldlM (add registry unknown) {} = .ok f := by
  rw [exists_eq_ok_iff]
  constructor
  · intro hclean e he
    obtain ⟨before, raw, after, f, hdocs, hf, he⟩ := foldlM_eq_error_iff.1 he
    exact hclean before raw after hdocs e ((add_eq_error_iff hf).1 he)
  · intro hok before raw after hdocs e hoffends
    -- What stands before the document is taken, so the loop would stop at the document.
    obtain ⟨f, hf⟩ : ∃ f, before.foldlM (add registry unknown) {} = .ok f := by
      rw [exists_eq_ok_iff]
      intro e' he'
      apply hok e'
      rw [hdocs, List.foldlM_append, he']
      rfl
    exact hok e (foldlM_eq_error_iff.2
      ⟨before, raw, after, f, hdocs, hf, (add_eq_error_iff hf).2 hoffends⟩)

/-- Reading documents fails with the fault of the first document that has one. -/
theorem foldlM_add_eq_error_iff : docs.foldlM (add registry unknown) {} = .error e ↔
    ∃ before raw after, docs = before ++ raw :: after ∧ Clean registry unknown before ∧
      Offends registry unknown before raw e := by
  rw [foldlM_eq_error_iff]
  constructor
  · rintro ⟨before, raw, after, f, hdocs, hf, he⟩
    exact ⟨before, raw, after, hdocs, clean_iff.2 ⟨f, hf⟩, (add_eq_error_iff hf).1 he⟩
  · rintro ⟨before, raw, after, hdocs, hclean, hoffends⟩
    obtain ⟨f, hf⟩ := clean_iff.1 hclean
    exact ⟨before, raw, after, f, hdocs, hf, (add_eq_error_iff hf).2 hoffends⟩

end Found

/-- A fault is local and names the document that has it. -/
theorem Offends.isLocal_and_names {before : List RawDocument} {raw : RawDocument} {e : Malformed}
    (h : Offends .builtin unknown before raw e) : e.isLocal = true ∧ e.Names raw.doc := by
  cases h with
  | unread h =>
    obtain ⟨doc, hplace, rfl | rfl⟩ := Declaration.exists_missing_of_ofDocument h
    · exact ⟨rfl, doc, rfl, hplace⟩
    · exact ⟨rfl, doc, rfl, hplace⟩
  | @repeated d h hid => exact ⟨rfl, d.doc, rfl, Declaration.samePlace_of_ofDocument h⟩
  | @refused d e h hid ha =>
    have hplace := Declaration.samePlace_of_ofDocument h
    rcases failsOnly_adapt_builtin unknown d e ha with ⟨path, expected, rfl⟩ | ⟨-, rfl⟩
    · exact ⟨rfl, d.doc, rfl, hplace⟩
    · exact ⟨rfl, d.doc, rfl, hplace⟩

end Assembly

namespace Graph

open Assembly

variable {docs : List RawDocument} {unknown : UnknownKinds} {e : Malformed}

/-- Documents make no graph because one of them has a fault, or else because a reference in one of
them names no resource. -/
theorem ofDocuments_eq_error_cases (h : ofDocuments docs .builtin unknown = .error e) :
    docs.foldlM (Found.add .builtin unknown) {} = .error e ∨
      Clean .builtin unknown docs ∧ ∃ doc reference, e = .danglingRelation doc reference ∧
        ∃ raw ∈ docs, e.Names raw.doc := by
  rcases bind_eq_error_iff.1 h with herror | ⟨f, hf, -⟩
  · exact .inl herror
  · refine .inr ⟨Found.clean_iff.2 ⟨f, hf⟩, ?_⟩
    cases hd : f.dangling with
    | nil =>
      obtain ⟨g, hg, -⟩ := ofDocuments_of_not_dangling hf hd
      rw [h] at hg
      cases hg
    | cons x r =>
      rw [ofDocuments_of_dangling hf hd] at h
      cases h
      have hx : (x.1, x.2) ∈ f.dangling := hd ▸ List.mem_cons_self
      obtain ⟨entry, hentry, hdoc, -⟩ := Found.mem_dangling_iff.1 hx
      obtain ⟨raw, hraw, d, hdeclared, -, hentrydoc⟩ := (Found.mem_adapted_iff hf).1 hentry
      refine ⟨x.1, x.2, rfl, raw, hraw, x.1, rfl, ?_⟩
      rw [← hdoc, hentrydoc]
      exact Declaration.samePlace_of_ofDocument hdeclared

/-- Every error is about one of the documents, and never about the resources as a whole. It is the
fault of the first document that has one; only where none has a fault is it a reference that names
no resource. -/
theorem ofDocuments_error_names (docs : List RawDocument) (unknown : UnknownKinds) :
    (∀ cause, ofDocuments docs .builtin unknown ≠ .error (.graph cause)) ∧
    (∀ e, ofDocuments docs .builtin unknown = .error e → ∃ raw ∈ docs, e.Names raw.doc) ∧
    (∀ e, ofDocuments docs .builtin unknown = .error e ∧ e.isLocal = true ↔
      ∃ before raw after, docs = before ++ raw :: after ∧ Clean .builtin unknown before ∧
        Offends .builtin unknown before raw e ∧ e.Names raw.doc) ∧
    (∀ e, ofDocuments docs .builtin unknown = .error e → e.isLocal = false →
      (∃ doc reference, e = .danglingRelation doc reference) ∧ Clean .builtin unknown docs) := by
  have hfirst (e : Malformed) (he : docs.foldlM (Found.add .builtin unknown) {} = .error e) :
      e.isLocal = true ∧ ∃ before raw after, docs = before ++ raw :: after ∧
        Clean .builtin unknown before ∧ Offends .builtin unknown before raw e ∧
        e.Names raw.doc := by
    obtain ⟨before, raw, after, hdocs, hclean, hoffends⟩ := Found.foldlM_add_eq_error_iff.1 he
    obtain ⟨hlocal, hnames⟩ := hoffends.isLocal_and_names
    exact ⟨hlocal, before, raw, after, hdocs, hclean, hoffends, hnames⟩
  refine ⟨fun cause h => ?_, fun e h => ?_, fun e => ⟨?_, ?_⟩, fun e h hlocal => ?_⟩
  · rcases ofDocuments_eq_error_cases h with he | ⟨-, doc, reference, he, -⟩
    · exact Bool.false_ne_true (hfirst _ he).1
    · cases he
  · rcases ofDocuments_eq_error_cases h with he | ⟨-, doc, reference, -, hnames⟩
    · obtain ⟨-, before, raw, after, rfl, -, -, hnames⟩ := hfirst e he
      exact ⟨raw, List.mem_append_right _ List.mem_cons_self, hnames⟩
    · exact hnames
  · rintro ⟨h, hlocal⟩
    rcases ofDocuments_eq_error_cases h with he | ⟨-, doc, reference, rfl, -⟩
    · exact (hfirst e he).2
    · cases hlocal
  · rintro ⟨before, raw, after, hdocs, hclean, hoffends, -⟩
    refine ⟨?_, hoffends.isLocal_and_names.1⟩
    exact bind_eq_error_iff.2 (.inl (Found.foldlM_add_eq_error_iff.2
      ⟨before, raw, after, hdocs, hclean, hoffends⟩))
  · rcases ofDocuments_eq_error_cases h with he | ⟨hclean, doc, reference, he, -⟩
    · rw [(hfirst e he).1] at hlocal
      cases hlocal
    · exact ⟨⟨doc, reference, he⟩, hclean⟩

/-- A reference that leads nowhere gives way to a fault in a later document. -/
example : (ofDocuments
    [⟨⟨.here, 0, none⟩, .obj
      [("type", .str "aws:s3/bucketPublicAccessBlock:BucketPublicAccessBlock"),
       ("name", .str "block"), ("properties", .obj [("bucket", .str "nowhere")])]⟩,
     ⟨⟨.here, 1, none⟩, .obj [("kind", .str "Pod")]⟩] .builtin .reject).map Graph.size =
    .error (.missingKind ⟨.here, 1, none⟩) := by
  decide +kernel

end Graph

end StackAudit
