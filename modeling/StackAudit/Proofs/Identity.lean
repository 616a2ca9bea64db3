import StackAudit.Proofs.Correspondence
import StackAudit.Proofs.Faults
import StackAudit.Proofs.Json.Spellings
import StackAudit.Proofs.Text.Blank

/-!
# Identities that can be used

A document with a type takes its id from its name, from the end of its uniform resource name or from
the id that the provider gave; one with an API version and a kind takes it from its metadata. Blank
texts are passed over, but the uniform resource name is looked at as a whole: one that ends with the
colons in front of the name counts, and gives the empty id.
-/
namespace StackAudit

namespace Reference

theorem suffix_behindLastColons (found cs : List Char) : found <:+ behindLastColons found cs := by
  fun_induction behindLastColons found cs with
  | case1 => exact List.suffix_rfl
  | case2 => exact List.suffix_rfl
  | case3 found c r _ ih => exact (List.suffix_cons c found).trans ih

/-- What stands behind the last colons stands at the end of the whole. -/
theorem behindLastColons_suffix (found cs : List Char) :
    behindLastColons found cs <:+ cs.reverse ++ found := by
  fun_induction behindLastColons found cs with
  | case1 => exact List.suffix_rfl
  | case2 found r => exact List.suffix_append _ found
  | case3 found c r _ ih =>
    rw [List.reverse_cons, List.append_assoc]
    exact ih

theorem behindLastColons_eq_nil_iff {cs : List Char} :
    behindLastColons [] cs = [] ↔ cs = [] ∨ ∃ r, cs = ':' :: ':' :: r := by
  fun_cases behindLastColons [] cs with
  | case1 => simp
  | case2 r => simp
  | case3 c r hcolons =>
    have hc : c ∈ behindLastColons [c] r :=
      (suffix_behindLastColons [c] r).mem List.mem_cons_self
    refine iff_of_false (List.ne_nil_of_mem hc) ?_
    rintro (h | ⟨r', h⟩)
    · cases h
    · cases h
      exact hcolons r' rfl rfl

/-- The last part is missing where the whole ends with the colons in front of it. -/
theorem urnName_eq_empty_iff {urn : String} :
    urnName urn = "" ↔ urn = "" ∨ ∃ front, urn = front ++ "::" := by
  rw [← String.toList_inj, urnName, String.toList_ofList, String.toList_empty,
    behindLastColons_eq_nil_iff, List.reverse_eq_nil_iff, String.toList_eq_nil_iff]
  refine or_congr_right ⟨?_, ?_⟩
  · rintro ⟨r, hr⟩
    refine ⟨String.ofList r.reverse, ?_⟩
    rw [← String.toList_inj, String.toList_append, String.toList_ofList,
      ← List.reverse_reverse urn.toList, hr]
    simp
  · rintro ⟨front, rfl⟩
    exact ⟨front.toList.reverse, by simp⟩

theorem toList_urnName_suffix (urn : String) : (urnName urn).toList <:+ urn.toList := by
  have h := behindLastColons_suffix [] urn.toList.reverse
  rw [List.reverse_reverse, List.append_nil] at h
  rwa [urnName, String.toList_ofList]

/-- Of a trimmed text, the last part is not blank unless it is missing. -/
theorem isBlankText_urnName_trim_iff {s : String} :
    Text.IsBlankText (urnName (Text.trim s)) ↔ urnName (Text.trim s) = "" := by
  constructor
  · intro hblank
    by_contra hne
    exact Text.not_isBlankText_of_suffix_trim (toList_urnName_suffix _) hne hblank
  · intro h
    simp [h, Text.IsBlankText]

end Reference

namespace RawDocument

open Text (IsBlankText)

/-- A text stands in a field. -/
def Says (raw : RawDocument) (k s : String) : Prop := raw.body.get? k = some (.str s)

/-- A text that is not blank stands in a field. -/
def Has (raw : RawDocument) (k : String) : Prop := ∃ s, raw.Says k s ∧ ¬IsBlankText s

/-- The texts by which a document may be known: its name, the end of its uniform resource name, the
id that the provider gave, and the name in its metadata. -/
inductive Offers (raw : RawDocument) : String → Prop where
  | name {s : String} (h : raw.Says "name" s) : Offers raw s
  | urn {s : String} (h : raw.Says "urn" s) : Offers raw (Reference.urnName (Text.trim s))
  | physical {s : String} (h : raw.Says "id" s) : Offers raw s
  | metadata {m : Json} {s : String} (h : raw.body.get? "metadata" = some m)
    (hname : m.get? "name" = some (.str s)) : Offers raw s

/-- Nothing but blank texts is there to know a document by. -/
def Nameless (raw : RawDocument) : Prop := ∀ s, raw.Offers s → IsBlankText s

/-- A document has a type, or an API version and a kind. -/
def Kinded (raw : RawDocument) : Prop := raw.Has "type" ∨ raw.Has "apiVersion" ∧ raw.Has "kind"

/-- A document with a type, not of the deployment engine, has no name of its own, and its uniform
resource name ends with the colons in front of the name. -/
structure LosesName (raw : RawDocument) : Prop where
  typed : raw.Has "type"
  external : raw.isInternal = false
  unnamed : ¬raw.Has "name"
  cut : ∃ s front, raw.Says "urn" s ∧ Text.trim s = front ++ "::"

/-- The error says that a document has no identity, or before that that it has no kind. -/
def Anonymous (raw : RawDocument) (e : Malformed) : Prop :=
  ∃ doc, doc.SamePlace raw.doc ∧
    (raw.Kinded ∧ e = .missingIdentity doc ∨ ¬raw.Kinded ∧ e = .missingKind doc)

end RawDocument

open Text (IsBlankText)

namespace Declaration

variable {raw : RawDocument} {place : DocumentRef} {fields : List (String × Json)} {k t : String}

theorem textOf?_eq_some_iff : textOf? fields k = some t ↔
    ∃ s, fields.lookup k = some (.str s) ∧ ¬IsBlankText s ∧ Text.trim s = t := by
  simp only [textOf?, Option.bind_eq_some_iff, Json.nonBlank?_eq_some_iff]
  constructor
  · rintro ⟨v, hv, s, rfl, hs⟩
    exact ⟨s, hv, hs⟩
  · rintro ⟨s, hs, ht⟩
    exact ⟨.str s, hs, s, rfl, ht⟩

theorem not_isBlankText_of_textOf? (h : textOf? fields k = some t) : ¬IsBlankText t := by
  obtain ⟨s, -, hblank, rfl⟩ := textOf?_eq_some_iff.1 h
  exact Text.not_isBlankText_trim hblank

theorem has_iff : RawDocument.Has ⟨place, .obj fields⟩ k ↔ ∃ t, textOf? fields k = some t := by
  simp only [textOf?_eq_some_iff]
  constructor
  · rintro ⟨s, hs, hblank⟩
    exact ⟨_, s, hs, hblank, rfl⟩
  · rintro ⟨-, s, hs, hblank, -⟩
    exact ⟨s, hs, hblank⟩

theorem textOf?_eq_none_iff :
    textOf? fields k = none ↔ ¬RawDocument.Has ⟨place, .obj fields⟩ k := by
  rw [has_iff, ← Option.isSome_iff_exists, Option.not_isSome_iff_eq_none]

/-- The id that the fields of an object give. -/
def idOf? (fields : List (String × Json)) : Option String :=
  match textOf? fields "type" with
  | some _ => tokenId? fields
  | none => metadataName? fields

/-- An object that has a kind is declared under its id, or fails for want of one. -/
theorem map_id_ofDocument (hexternal : RawDocument.isInternal ⟨place, .obj fields⟩ = false)
    (hkinded : RawDocument.Kinded ⟨place, .obj fields⟩) :
    (ofDocument ⟨place, .obj fields⟩).map (Option.map id) = match idOf? fields with
      | some id => .ok (some id)
      | none => .error (.missingIdentity (refOf place fields)) := by
  rw [idOf?]
  cases htype : textOf? fields "type" with
  | some token =>
    rw [isInternal_eq_of_typed htype] at hexternal
    rw [ofDocument_of_typed htype, if_neg (by simp [hexternal]), ofToken_eq]
    cases tokenId? fields <;> rfl
  | none =>
    rcases hkinded with htyped | ⟨hversion, hkind⟩
    · exact absurd htyped (textOf?_eq_none_iff.1 htype)
    · obtain ⟨version, hversion⟩ := has_iff.1 hversion
      obtain ⟨kind, hkind⟩ := has_iff.1 hkind
      rw [ofDocument_of_untyped htype, ofKind, hversion, hkind]
      cases metadataName? fields <;> rfl

theorem exists_ofDocument_of_idOf? (hexternal : RawDocument.isInternal ⟨place, .obj fields⟩ = false)
    (hkinded : RawDocument.Kinded ⟨place, .obj fields⟩) {id : String}
    (hid : idOf? fields = some id) :
    ∃ d, ofDocument ⟨place, .obj fields⟩ = .ok (some d) ∧ d.id = id := by
  have hmap := map_id_ofDocument hexternal hkinded
  rw [hid] at hmap
  obtain ⟨d?, hd, hsome⟩ := map_eq_ok_iff.1 hmap
  obtain ⟨d, rfl, hdid⟩ := Option.map_eq_some_iff.1 hsome
  exact ⟨d, hd, hdid⟩

theorem ofDocument_of_idOf?_eq_none
    (hexternal : RawDocument.isInternal ⟨place, .obj fields⟩ = false)
    (hkinded : RawDocument.Kinded ⟨place, .obj fields⟩) (hid : idOf? fields = none) :
    ofDocument ⟨place, .obj fields⟩ = .error (.missingIdentity (refOf place fields)) := by
  have hmap := map_id_ofDocument hexternal hkinded
  rw [hid] at hmap
  cases h : ofDocument ⟨place, .obj fields⟩ with
  | ok d =>
    rw [h] at hmap
    cases hmap
  | error e =>
    rw [h] at hmap
    cases hmap
    rfl

/-- A document that has no kind fails, whatever its name. -/
theorem ofDocument_of_not_kinded (h : ¬raw.Kinded) :
    ∃ doc, doc.SamePlace raw.doc ∧ ofDocument raw = .error (.missingKind doc) := by
  obtain ⟨place, body⟩ := raw
  cases body with
  | obj fields =>
    refine ⟨refOf place fields, samePlace_refOf place fields, ?_⟩
    rw [RawDocument.Kinded, not_or, ← textOf?_eq_none_iff, not_and_or, ← textOf?_eq_none_iff,
      ← textOf?_eq_none_iff] at h
    obtain ⟨htype, hkind⟩ := h
    rw [ofDocument_of_untyped htype, ofKind]
    rcases hkind with hversion | hkind
    · rw [hversion]
      rfl
    · rw [hkind]
      cases textOf? fields "apiVersion" <;> rfl
  | _ => exact ⟨place, ⟨rfl, rfl⟩, rfl⟩

/-- The id of an object with a type is blank where the name is and nothing is left of the uniform
resource name. -/
theorem isBlankText_tokenId?_iff {id : String} (hid : tokenId? fields = some id) :
    IsBlankText id ↔ textOf? fields "name" = none ∧
      ∃ urn, textOf? fields "urn" = some urn ∧ Reference.urnName urn = "" := by
  rw [tokenId?] at hid
  cases hname : textOf? fields "name" with
  | some name =>
    obtain rfl : name = id := by simpa [hname] using hid
    simp [not_isBlankText_of_textOf? hname]
  | none =>
    cases hurn : textOf? fields "urn" with
    | some urn =>
      obtain rfl : Reference.urnName urn = id := by simpa [hname, hurn] using hid
      obtain ⟨s, -, -, rfl⟩ := textOf?_eq_some_iff.1 hurn
      simp [Reference.isBlankText_urnName_trim_iff]
    | none =>
      have hphysical : textOf? fields "id" = some id := by simpa [hname, hurn] using hid
      simp [not_isBlankText_of_textOf? hphysical]

/-- Nothing is left of a uniform resource name that ends with the colons in front of the name. -/
theorem exists_urnName_eq_empty_iff :
    (∃ urn, textOf? fields "urn" = some urn ∧ Reference.urnName urn = "") ↔
      ∃ s front, RawDocument.Says ⟨place, .obj fields⟩ "urn" s ∧ Text.trim s = front ++ "::" := by
  simp only [textOf?_eq_some_iff, Reference.urnName_eq_empty_iff]
  constructor
  · rintro ⟨-, ⟨s, hs, hblank, rfl⟩, hempty | ⟨front, hfront⟩⟩
    · exact absurd (Text.trim_eq_empty_iff.1 hempty) hblank
    · exact ⟨s, front, hs, hfront⟩
  · rintro ⟨s, front, hs, hfront⟩
    have hblank : ¬IsBlankText s := by
      rw [← Text.trim_eq_empty_iff, hfront]
      simp
    exact ⟨_, ⟨s, hs, hblank, rfl⟩, .inr ⟨front, hfront⟩⟩

/-- The id of an object is blank exactly where the name is lost. -/
theorem isBlankText_idOf?_iff (hexternal : RawDocument.isInternal ⟨place, .obj fields⟩ = false)
    {id : String} (hid : idOf? fields = some id) :
    IsBlankText id ↔ RawDocument.LosesName ⟨place, .obj fields⟩ := by
  rw [idOf?] at hid
  cases htype : textOf? fields "type" with
  | some token =>
    rw [htype] at hid
    have hname : textOf? fields "name" = none ↔ ¬RawDocument.Has ⟨place, .obj fields⟩ "name" :=
      textOf?_eq_none_iff
    have hurn : (∃ urn, textOf? fields "urn" = some urn ∧ Reference.urnName urn = "") ↔
        ∃ s front, RawDocument.Says ⟨place, .obj fields⟩ "urn" s ∧ Text.trim s = front ++ "::" :=
      exists_urnName_eq_empty_iff
    rw [isBlankText_tokenId?_iff hid, hname, hurn]
    constructor
    · rintro ⟨hunnamed, hcut⟩
      exact ⟨has_iff.2 ⟨token, htype⟩, hexternal, hunnamed, hcut⟩
    · rintro ⟨-, -, hunnamed, hcut⟩
      exact ⟨hunnamed, hcut⟩
  | none =>
    rw [htype] at hid
    obtain ⟨m, -, hm⟩ := Option.bind_eq_some_iff.1 hid
    obtain ⟨s, -, hs, rfl⟩ := Json.nonBlank?_eq_some_iff.1 hm
    exact iff_of_false (Text.not_isBlankText_trim hs) fun h => textOf?_eq_none_iff.1 htype h.typed

/-- A document with a kind is an object. -/
theorem exists_fields_of_kinded (h : raw.Kinded) : ∃ fields, raw.body = .obj fields := by
  obtain ⟨place, body⟩ := raw
  cases body with
  | obj fields => exact ⟨fields, rfl⟩
  | _ => rcases h with ⟨s, hs, -⟩ | ⟨⟨s, hs, -⟩, -⟩ <;> cases hs

/-- A declaration has a blank id exactly where the document loses its name. -/
theorem isBlankText_id_iff {d : Declaration} (h : ofDocument raw = .ok (some d)) :
    IsBlankText d.id ↔ raw.LosesName := by
  have hexternal : raw.isInternal = false := by simpa using isSome_of_ofDocument h
  have hkinded : raw.Kinded := by
    by_contra hkinded
    obtain ⟨doc, -, herror⟩ := ofDocument_of_not_kinded hkinded
    rw [h] at herror
    cases herror
  obtain ⟨place, body⟩ := raw
  obtain ⟨fields, rfl⟩ := exists_fields_of_kinded hkinded
  refine isBlankText_idOf?_iff hexternal ?_
  cases hid : idOf? fields with
  | some id =>
    obtain ⟨d', hd', rfl⟩ := exists_ofDocument_of_idOf? hexternal hkinded hid
    rw [h] at hd'
    cases hd'
    rfl
  | none =>
    rw [ofDocument_of_idOf?_eq_none hexternal hkinded hid] at h
    cases h

/-- Where nothing but blank texts is offered, an id can only be blank. -/
theorem isBlankText_of_nameless (h : RawDocument.Nameless ⟨place, .obj fields⟩) {id : String}
    (hid : idOf? fields = some id) : IsBlankText id := by
  have hfield {k : String} (hoffers : ∀ s, RawDocument.Says ⟨place, .obj fields⟩ k s →
      RawDocument.Offers ⟨place, .obj fields⟩ s) : textOf? fields k = none := by
    rw [textOf?_eq_none_iff]
    rintro ⟨s, hs, hblank⟩
    exact hblank (h s (hoffers s hs))
  have hname : textOf? fields "name" = none := hfield fun s => .name
  have hphysical : textOf? fields "id" = none := hfield fun s => .physical
  have hmetadata : metadataName? fields = none := by
    rw [metadataName?, Option.bind_eq_none_iff]
    intro v hv
    obtain ⟨m, hm, hname⟩ := Option.bind_eq_some_iff.1 hv
    rw [Option.eq_none_iff_forall_ne_some]
    intro t ht
    obtain ⟨s, rfl, hblank, -⟩ := Json.nonBlank?_eq_some_iff.1 ht
    exact hblank (h s (.metadata hm hname))
  rw [idOf?, tokenId?, hname, hphysical, hmetadata] at hid
  cases htype : textOf? fields "type" with
  | none =>
    rw [htype] at hid
    cases hid
  | some token =>
    rw [htype] at hid
    obtain ⟨urn, hurn, rfl⟩ : ∃ urn, textOf? fields "urn" = some urn ∧
        Reference.urnName urn = id := by simpa using hid
    obtain ⟨s, hs, -, rfl⟩ := textOf?_eq_some_iff.1 hurn
    exact h _ (.urn hs)

/-- What is left of a lost name is the empty id. -/
theorem exists_ofDocument_of_losesName (h : raw.LosesName) :
    ∃ d, ofDocument raw = .ok (some d) ∧ d.id = "" := by
  obtain ⟨place, body⟩ := raw
  obtain ⟨fields, rfl⟩ := exists_fields_of_kinded (.inl h.typed)
  refine exists_ofDocument_of_idOf? h.external (.inl h.typed) ?_
  obtain ⟨token, htype⟩ := has_iff.1 h.typed
  obtain ⟨urn, hurn, hempty⟩ := exists_urnName_eq_empty_iff.2 h.cut
  rw [idOf?, htype]
  change tokenId? fields = some ""
  rw [tokenId?, textOf?_eq_none_iff.2 h.unnamed, hurn, Option.map_some, hempty]
  rfl

/-- A document that offers no name is refused, unless it loses its name. -/
theorem ofDocument_eq_error_iff_of_nameless (hexternal : raw.isInternal = false)
    (h : raw.Nameless) :
    (∃ e, ofDocument raw = .error e ∧ raw.Anonymous e) ↔ ¬raw.LosesName := by
  constructor
  · rintro ⟨e, he, -⟩ hloses
    obtain ⟨d, hd, -⟩ := exists_ofDocument_of_losesName hloses
    rw [he] at hd
    cases hd
  · intro hloses
    by_cases hkinded : raw.Kinded
    · obtain ⟨place, body⟩ := raw
      obtain ⟨fields, rfl⟩ := exists_fields_of_kinded hkinded
      cases hid : idOf? fields with
      | some id =>
        have hblank := isBlankText_of_nameless h hid
        exact absurd ((isBlankText_idOf?_iff hexternal hid).1 hblank) hloses
      | none =>
        exact ⟨_, ofDocument_of_idOf?_eq_none hexternal hkinded hid, refOf place fields,
          samePlace_refOf place fields, .inl ⟨hkinded, rfl⟩⟩
    · obtain ⟨doc, hplace, herror⟩ := ofDocument_of_not_kinded hkinded
      exact ⟨_, herror, doc, hplace, .inr ⟨hkinded, rfl⟩⟩

end Declaration

namespace Assembly

/-- A document that cannot be read is an error of the whole list, if none in front of it is one. -/
theorem Found.exists_foldlM_add_of_unread (registry : AdapterRegistry) (unknown : UnknownKinds)
    (before after : List RawDocument) {raw : RawDocument} {e : Malformed}
    (h : Declaration.ofDocument raw = .error e) :
    ∃ e', (before ++ raw :: after).foldlM (add registry unknown) {} = .error e' ∧
      (e' = e ∨ ∃ front earlier behind, before = front ++ earlier :: behind ∧
        Offends registry unknown front earlier e') := by
  rw [List.foldlM_append]
  cases hbefore : before.foldlM (add registry unknown) {} with
  | error e' =>
    obtain ⟨front, earlier, behind, hsplit, -, hoffends⟩ := foldlM_add_eq_error_iff.1 hbefore
    exact ⟨e', rfl, .inr ⟨front, earlier, behind, hsplit, hoffends⟩⟩
  | ok f =>
    refine ⟨e, ?_, .inl rfl⟩
    rw [ok_bind, List.foldlM_cons, (add_eq_error_iff hbefore).2 (.unread h)]
    rfl

end Assembly

namespace Graph

open Assembly

/-- The ids of a graph are those that its documents declare. -/
theorem forall_id_iff {docs : List RawDocument} {unknown : UnknownKinds} {g : Graph}
    (hg : ofDocuments docs .builtin unknown = .ok g) {P : String → Prop} :
    (∀ r ∈ g.resources, P r.id) ↔
      ∀ raw ∈ docs, ∀ d, Declaration.ofDocument raw = .ok (some d) → P d.id := by
  constructor
  · intro h raw hraw d hd
    obtain ⟨r, hr, hid, -⟩ := exists_resource_of_declared hg hraw hd
    exact hid ▸ h r hr
  · intro h r hr
    obtain ⟨f, hf, -, hresources⟩ := exists_found_of_ofDocuments hg
    rw [hresources] at hr
    obtain ⟨entry, hentry, rfl⟩ := List.mem_map.1 hr
    obtain ⟨raw, hraw, d, hd, ha, -⟩ := (Found.mem_adapted_iff hf).1 hentry
    have hid : (f.resolved entry).id = d.id := id_of_adapt_builtin ha
    exact hid ▸ h raw hraw d hd

/-- No resource of a graph has a blank id, if no document loses its name. A document that offers no
name is refused for that, unless it loses its name or a document in front of it is at fault; and one
that loses its name is taken for the empty id. -/
theorem ofDocuments_identifies (docs : List RawDocument) (unknown : UnknownKinds) :
    (∀ g, ofDocuments docs .builtin unknown = .ok g →
      ((∀ r ∈ g.resources, ¬IsBlankText r.id) ↔ ∀ raw ∈ docs, ¬raw.LosesName)) ∧
    (∀ before raw after, docs = before ++ raw :: after → raw.isInternal = false → raw.Nameless →
      ¬raw.LosesName → ∃ e, ofDocuments docs .builtin unknown = .error e ∧
        (raw.Anonymous e ∨ ∃ front earlier behind, before = front ++ earlier :: behind ∧
          Offends .builtin unknown front earlier e)) ∧
    ∀ raw : RawDocument, raw.LosesName →
      ∃ d, Declaration.ofDocument raw = .ok (some d) ∧ d.id = "" := by
  refine ⟨fun g hg => ?_, ?_, fun raw => Declaration.exists_ofDocument_of_losesName⟩
  · rw [forall_id_iff hg (P := fun id => ¬IsBlankText id)]
    refine forall₂_congr fun raw _ => ?_
    constructor
    · intro h hloses
      obtain ⟨d, hd, -⟩ := Declaration.exists_ofDocument_of_losesName hloses
      exact h d hd ((Declaration.isBlankText_id_iff hd).2 hloses)
    · intro hloses d hd hblank
      exact hloses ((Declaration.isBlankText_id_iff hd).1 hblank)
  · rintro before raw after rfl hexternal hnameless hloses
    obtain ⟨e, he, hanonymous⟩ :=
      (Declaration.ofDocument_eq_error_iff_of_nameless hexternal hnameless).2 hloses
    obtain ⟨e', he', hcause⟩ :=
      Found.exists_foldlM_add_of_unread .builtin unknown before after he
    refine ⟨e', bind_eq_error_iff.2 (.inl he'), ?_⟩
    rcases hcause with rfl | hearlier
    · exact .inl hanonymous
    · exact .inr hearlier

/-- An exported bucket, known by the end of its uniform resource name. -/
def exportedBucket : RawDocument :=
  { doc := ⟨.here, 0, none⟩
    body := .obj [("type", .str "aws:s3/bucket:Bucket"),
      ("urn", .str " urn:pulumi:dev::site::aws:s3/bucket:Bucket::logs "), ("name", .str " ")] }

/-- An object with a kind that has nothing but a blank name. -/
def blankPod : RawDocument :=
  { doc := ⟨.here, 1, none⟩
    body := .obj [("apiVersion", .str "v1"), ("kind", .str "Pod"),
      ("metadata", .obj [("name", .str "\t")])] }

theorem ofDocuments_identifies_exported :
    (∃ g, ofDocuments [exportedBucket] .builtin .reject = .ok g ∧
      g.resources.map Resource.id = ["logs"] ∧ ¬exportedBucket.LosesName) ∧
    (∃ e, ofDocuments [blankPod, exportedBucket] .builtin .reject = .error e ∧
      blankPod.Anonymous e) := by
  constructor
  · obtain ⟨g, hg, hids⟩ : ∃ g, ofDocuments [exportedBucket] .builtin .reject = .ok g ∧
        g.resources.map Resource.id = ["logs"] := exists_eq_ok_of_map (by decide +kernel)
    refine ⟨g, hg, hids, ?_⟩
    have hnamed : ∀ r ∈ g.resources, ¬IsBlankText r.id := by
      intro r hr
      have hid : r.id ∈ ["logs"] := hids ▸ List.mem_map_of_mem hr
      rw [List.mem_singleton.1 hid, ← Text.trim_eq_empty_iff]
      decide +kernel
    exact ((ofDocuments_identifies [exportedBucket] .reject).1 g hg).1 hnamed _
      List.mem_cons_self
  · have hnameless : blankPod.Nameless := by
      intro s hs
      cases hs with
      | name h => cases h
      | urn h => cases h
      | physical h => cases h
      | metadata h hname =>
        cases h
        cases hname
        rw [← Text.trim_eq_empty_iff]
        decide +kernel
    have hloses : ¬blankPod.LosesName := by
      rintro ⟨⟨s, hs, -⟩, -⟩
      cases hs
    obtain ⟨e, he, hanonymous | ⟨front, earlier, behind, hsplit, -⟩⟩ :=
      (ofDocuments_identifies [blankPod, exportedBucket] .reject).2.1 [] blankPod
        [exportedBucket] rfl rfl hnameless hloses
    · exact ⟨e, he, hanonymous⟩
    · simp at hsplit

/-- A bucket whose uniform resource name ends where its name should begin. -/
def cutBucket : RawDocument :=
  { doc := ⟨.here, 0, none⟩
    body := .obj [("type", .str "aws:s3/bucket:Bucket"),
      ("urn", .str "urn:pulumi:dev::site::aws:s3/bucket:Bucket::")] }

/-- A bucket that offers no name is taken, and its resource has the empty id. -/
theorem not_ofDocuments_identifies_cut : cutBucket.Nameless ∧
    ∃ g, ofDocuments [cutBucket] .builtin .reject = .ok g ∧ g.resources.map Resource.id = [""] ∧
      ¬∀ r ∈ g.resources, ¬IsBlankText r.id := by
  constructor
  · intro s hs
    cases hs with
    | name h => cases h
    | urn h =>
      cases h
      rw [Reference.isBlankText_urnName_trim_iff]
      decide +kernel
    | physical h => cases h
    | metadata h _ => cases h
  · obtain ⟨g, hg, hids⟩ : ∃ g, ofDocuments [cutBucket] .builtin .reject = .ok g ∧
        g.resources.map Resource.id = [""] := exists_eq_ok_of_map (by decide +kernel)
    refine ⟨g, hg, hids, fun h => ?_⟩
    obtain ⟨r, hr, hid⟩ := List.mem_map.1 (hids ▸ List.mem_singleton_self "")
    exact h r hr (by simp [hid, IsBlankText])

end Graph

end StackAudit
