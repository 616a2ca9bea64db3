import StackAudit.Declaration
import StackAudit.Proofs.Except

/-!
# Reading a declaration

A declaration is read from the fields of an object in one of two ways, told apart by the field
`type`. Whatever comes of it, a declaration or an error, points back to the file of the document and
to its number there; only the name is read from the document itself.
-/
namespace StackAudit

/-- Two identities of one document, which may differ in the name. -/
def DocumentRef.SamePlace (a b : DocumentRef) : Prop := a.source = b.source ∧ a.index = b.index

/-- An error is about a document. -/
def Malformed.Names (e : Malformed) (doc : DocumentRef) : Prop :=
  ∃ named, e.document? = some named ∧ named.SamePlace doc

namespace Declaration

/-- The identity of an object, with the name that its fields give it. -/
def refOf (doc : DocumentRef) (fields : List (String × Json)) : DocumentRef :=
  { doc with name := (displayName? fields).or doc.name }

theorem samePlace_refOf (doc : DocumentRef) (fields : List (String × Json)) :
    (refOf doc fields).SamePlace doc :=
  ⟨rfl, rfl⟩

/-- The id of an object with a type token: its name, the end of its uniform resource name, or the id
that the provider gave. -/
def tokenId? (fields : List (String × Json)) : Option String :=
  ((textOf? fields "name").or ((textOf? fields "urn").map Reference.urnName)).or
    (textOf? fields "id")

/-- The declaration that an object with a type token makes. -/
def typed (doc : DocumentRef) (fields : List (String × Json)) (token id : String) :
    Declaration where
  doc := doc
  typeToken := token
  id := id
  properties := firstObject fields ["properties", "inputs", "outputs"]
  physicalId := textOf? fields "id"
  outputs := firstObject fields ["outputs"]

/-- The declaration that an object with an API version and a kind makes. -/
def kinded (doc : DocumentRef) (fields : List (String × Json)) (version kind id : String) :
    Declaration where
  doc := doc
  typeToken := version ++ "/" ++ kind
  id := id
  properties := .obj (fields.filter fun e => e.1 ≠ "apiVersion" ∧ e.1 ≠ "kind")
  physicalId := none
  outputs := .obj []

theorem ofToken_eq (doc : DocumentRef) (fields : List (String × Json)) (token : String) :
    ofToken doc fields token = match tokenId? fields with
      | none => .error (.missingIdentity doc)
      | some id => .ok (typed doc fields token id) := rfl

theorem ofKind_of_named {doc : DocumentRef} {fields : List (String × Json)}
    {version kind id : String} (hversion : textOf? fields "apiVersion" = some version)
    (hkind : textOf? fields "kind" = some kind) (hid : metadataName? fields = some id) :
    ofKind doc fields = .ok (kinded doc fields version kind id) := by
  simp only [ofKind, hversion, hkind, hid, kinded]

theorem ofDocument_of_typed {doc : DocumentRef} {fields : List (String × Json)} {token : String}
    (h : textOf? fields "type" = some token) :
    ofDocument ⟨doc, .obj fields⟩ = if isInternal token then .ok none
      else (ofToken (refOf doc fields) fields token).map some := by
  simp only [ofDocument, h, refOf]

theorem ofDocument_of_untyped {doc : DocumentRef} {fields : List (String × Json)}
    (h : textOf? fields "type" = none) :
    ofDocument ⟨doc, .obj fields⟩ = (ofKind (refOf doc fields) fields).map some := by
  simp only [ofDocument, h, refOf]

/-- What reading an object gives points to the document of the object. -/
def PointsTo (doc : DocumentRef) : Except Malformed Declaration → Prop
  | .ok d => d.doc = doc
  | .error e => e = .missingKind doc ∨ e = .missingIdentity doc

theorem pointsTo_ofToken (doc : DocumentRef) (fields : List (String × Json)) (token : String) :
    PointsTo doc (ofToken doc fields token) := by
  rw [ofToken_eq]
  cases tokenId? fields with
  | none => exact .inr rfl
  | some id => exact rfl

theorem pointsTo_ofKind (doc : DocumentRef) (fields : List (String × Json)) :
    PointsTo doc (ofKind doc fields) := by
  unfold ofKind
  split
  · split
    · exact .inr rfl
    · exact rfl
  · exact .inl rfl

/-- A document is no object, or it belongs to the deployment engine, or it is read in one of the two
ways. -/
theorem ofDocument_cases (raw : RawDocument) :
    ofDocument raw = .error (.missingKind raw.doc) ∨ ofDocument raw = .ok none ∨
      ∃ doc x, doc.SamePlace raw.doc ∧ PointsTo doc x ∧ ofDocument raw = x.map some := by
  obtain ⟨doc, body⟩ := raw
  cases body with
  | obj fields =>
    cases htype : textOf? fields "type" with
    | none =>
      exact .inr (.inr ⟨_, _, samePlace_refOf doc fields, pointsTo_ofKind _ fields,
        ofDocument_of_untyped htype⟩)
    | some token =>
      rw [ofDocument_of_typed htype]
      by_cases hinternal : isInternal token = true
      · exact .inr (.inl (if_pos hinternal))
      · rw [if_neg hinternal]
        exact .inr (.inr ⟨_, _, samePlace_refOf doc fields, pointsTo_ofToken _ fields token, rfl⟩)
  | _ => exact .inl rfl

/-- A declaration keeps the place of its document. -/
theorem samePlace_of_ofDocument {raw : RawDocument} {d : Declaration}
    (h : ofDocument raw = .ok (some d)) : d.doc.SamePlace raw.doc := by
  rcases ofDocument_cases raw with h' | h' | ⟨doc, x, hplace, hpoints, h'⟩
  · rw [h] at h'
    cases h'
  · rw [h] at h'
    cases h'
  · obtain ⟨d', rfl, hd⟩ := map_eq_ok_iff.1 (h'.symm.trans h)
    cases hd
    exact hpoints ▸ hplace

/-- A document that cannot be read lacks a kind or an identity. -/
theorem exists_missing_of_ofDocument {raw : RawDocument} {e : Malformed}
    (h : ofDocument raw = .error e) :
    ∃ doc, doc.SamePlace raw.doc ∧ (e = .missingKind doc ∨ e = .missingIdentity doc) := by
  rcases ofDocument_cases raw with h' | h' | ⟨doc, x, hplace, hpoints, h'⟩
  · rw [h] at h'
    exact ⟨raw.doc, ⟨rfl, rfl⟩, .inl (Except.error.inj h')⟩
  · rw [h] at h'
    cases h'
  · cases x with
    | ok d =>
      rw [h] at h'
      cases h'
    | error e' =>
      rw [h] at h'
      cases h'
      exact ⟨doc, hplace, hpoints⟩

end Declaration

end StackAudit
