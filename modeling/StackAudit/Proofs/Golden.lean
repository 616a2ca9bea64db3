import StackAudit.Golden
import StackAudit.Proofs.Json.Path
import StackAudit.Proofs.Json.SameBut
import StackAudit.Proofs.Json.Spellings
import StackAudit.Proofs.KeyMap

/-!
# What is hidden from the comparison

Normalizing hides the times and the version at the root of a report, and nothing else: values look
alike afterwards exactly when they are the same but for these. The times are hidden by a walk
through the whole value, the version in two steps from the root, and as neither touches what the
other looks for, they may be taken one by one and in any order.
-/
namespace StackAudit.Golden

open Json (Step SameBut forall₂_congr_of_mem map_eq_map_iff sameBut_arr_iff sameBut_iff_eq
  sameBut_obj_iff)

/-! ### Times -/

@[simp] theorem hideTimesItems_eq_map (l : List Json) : hideTimesItems l = l.map hideTimes := by
  induction l with
  | nil => rfl
  | cons v r ih => rw [hideTimesItems, ih, List.map_cons]

/-- Hides the time of a field, or the times below it. -/
def hideTimesField (e : String × Json) : String × Json :=
  (e.1, if isTimeField e.1 then timePlaceholder else hideTimes e.2)

@[simp] theorem hideTimesFields_eq_map (l : List (String × Json)) :
    hideTimesFields l = l.map hideTimesField := by
  induction l with
  | nil => rfl
  | cons e r ih => rw [hideTimesFields, ih, List.map_cons, hideTimesField]

theorem hideTimes_arr (vs : List Json) : hideTimes (.arr vs) = .arr (vs.map hideTimes) := by
  rw [hideTimes, hideTimesItems_eq_map]

theorem hideTimes_obj (fs : List (String × Json)) :
    hideTimes (.obj fs) = .obj (fs.map hideTimesField) := by
  rw [hideTimes, hideTimesFields_eq_map]

theorem hideTimesField_eq_iff {e e' : String × Json} :
    hideTimesField e = hideTimesField e' ↔
      e.1 = e'.1 ∧ (isTimeField e.1 = true ∨ hideTimes e.2 = hideTimes e'.2) := by
  rw [hideTimesField, hideTimesField, Prod.mk.injEq]
  refine and_congr_right fun hname => ?_
  by_cases h : isTimeField e.1 = true <;> simp [h, ← hname]

/-- The steps lead to a field that holds a time. -/
def EndsInTime (p : List Step) : Prop :=
  p.getLast? = some (.field "started_at") ∨ p.getLast? = some (.field "finished_at")

theorem isTimeField_iff {name : String} : isTimeField name = true ↔ EndsInTime [.field name] := by
  simp [isTimeField, EndsInTime]

theorem endsInTime_cons_cons (s t : Step) (p : List Step) :
    EndsInTime (s :: t :: p) ↔ EndsInTime (t :: p) := by
  simp only [EndsInTime, List.getLast?_cons_cons]

/-- Values in which only times below the root may differ look alike when their times are hidden. -/
theorem sameBut_iff_hideTimes {P : List Step → Prop} (hP : ∀ s p, P (s :: p) ↔ EndsInTime (s :: p))
    (v w : Json) : SameBut P v w ↔ P [] ∨ hideTimes v = hideTimes w := by
  induction v using Json.induction_children generalizing P w with
  | h v ih =>
  -- A place below a child ends as it does below the value, but the child itself need not.
  have hchild (s : Step) : ∀ s' p, P (s :: s' :: p) ↔ EndsInTime (s' :: p) := fun s' p =>
    (hP s (s' :: p)).trans (endsInTime_cons_cons s s' p)
  cases v with
  | arr vs =>
    cases w with
    | arr ws =>
      have hitem : ¬P [.item] := by
        rw [hP]
        simp [EndsInTime]
      simp only [sameBut_arr_iff, hideTimes_arr, Json.arr.injEq, map_eq_map_iff]
      refine or_congr_right (forall₂_congr_of_mem fun v hv w => ?_)
      rw [ih v hv (hchild .item), or_iff_right hitem]
    | _ => simp [sameBut_iff_eq, hideTimes]
  | obj fs =>
    cases w with
    | obj gs =>
      simp only [sameBut_obj_iff, hideTimes_obj, Json.obj.injEq, map_eq_map_iff]
      refine or_congr_right (forall₂_congr_of_mem fun e he e' => ?_)
      have hmem : e.2 ∈ (Json.obj fs).children := List.mem_map_of_mem he
      rw [hideTimesField_eq_iff]
      refine and_congr_right fun _ => ?_
      rw [ih e.2 hmem (hchild (.field e.1)), hP, ← isTimeField_iff]
    | _ => simp [sameBut_iff_eq, hideTimes]
  | _ => cases w <;> simp [sameBut_iff_eq, hideTimes]

/-! ### The version -/

/-- The fields of a report stand in the value. -/
def HasOutline (v : Json) : Prop :=
  ∀ name ∈ ["schema", "tool", "gate", "stacks"], ∃ x, v.get? name = some x

/-- The places whose values differ from run to run: times wherever they stand, and in a report the
version of the tool. -/
inductive IsVolatile (v : Json) : List Step → Prop where
  | startedAt (front : List Step) : IsVolatile v (front ++ [.field "started_at"])
  | finishedAt (front : List Step) : IsVolatile v (front ++ [.field "finished_at"])
  | version (h : HasOutline v) : IsVolatile v [.field "tool", .field "version"]

theorem isVolatile_iff {v : Json} {p : List Step} :
    IsVolatile v p ↔ EndsInTime p ∨ HasOutline v ∧ p = [.field "tool", .field "version"] := by
  simp only [EndsInTime, List.getLast?_eq_some_iff]
  constructor
  · rintro (front | front | h)
    · exact .inl (.inl ⟨front, rfl⟩)
    · exact .inl (.inr ⟨front, rfl⟩)
    · exact .inr ⟨h, rfl⟩
  · rintro ((⟨front, rfl⟩ | ⟨front, rfl⟩) | ⟨h, rfl⟩)
    · exact .startedAt front
    · exact .finishedAt front
    · exact .version h

theorem isReport_iff {v : Json} : isReport v = true ↔ HasOutline v := by
  simp only [isReport, HasOutline, List.all_eq_true, Option.isSome_iff_exists]

theorem hideVersion_of_isReport {fs : List (String × Json)} (h : isReport (.obj fs) = true) :
    hideVersion (.obj fs) = .obj (mapField "tool" hideToolVersion fs) := by
  rw [hideVersion, if_pos h]

theorem hideVersion_of_not_isReport {v : Json} (h : ¬isReport v = true) : hideVersion v = v := by
  cases v with
  | obj fs => rw [hideVersion, if_neg h]
  | _ => rfl

theorem mapField_eq_map (name : String) (f : Json → Json) (fields : List (String × Json)) :
    mapField name f fields = fields.map fun e => (e.1, if e.1 = name then f e.2 else e.2) := by
  refine List.map_congr_left fun e _ => ?_
  split <;> rfl

theorem sameBut_mapField {P Q : List Step → Prop} {name : String} {f : Json → Json}
    {fs gs : List (String × Json)} (hroot : P [] ↔ Q [])
    (hother : ∀ other p, other ≠ name → (P (.field other :: p) ↔ Q (.field other :: p)))
    (hfield : ∀ v w, SameBut (fun p => P (.field name :: p)) (f v) (f w) ↔
      SameBut (fun p => Q (.field name :: p)) v w) :
    SameBut P (.obj (mapField name f fs)) (.obj (mapField name f gs)) ↔
      SameBut Q (.obj fs) (.obj gs) := by
  rw [sameBut_obj_iff, sameBut_obj_iff, hroot, mapField_eq_map, mapField_eq_map,
    List.forall₂_map_left_iff, List.forall₂_map_right_iff]
  refine or_congr_right (forall₂_congr_of_mem fun e _ e' => ?_)
  refine and_congr_right fun (hname : e.1 = e'.1) => ?_
  by_cases h : e.1 = name
  · have h' : e'.1 = name := hname ▸ h
    simp only [h, h', if_true, hfield]
  · have h' : e'.1 ≠ name := hname ▸ h
    simp only [h, h', if_false, hother _ _ h]

theorem sameBut_hideToolVersion (v w : Json) :
    SameBut (fun p => EndsInTime (.field "tool" :: p)) (hideToolVersion v) (hideToolVersion w) ↔
      SameBut (fun p => EndsInTime (.field "tool" :: p) ∨ p = [.field "version"]) v w := by
  cases v with
  | arr vs =>
    cases w with
    | arr ws => simp [hideToolVersion, sameBut_arr_iff]
    | _ => simp [hideToolVersion, sameBut_iff_eq]
  | obj fs =>
    cases w with
    | obj gs =>
      refine sameBut_mapField (by simp) (fun other p h => by simp [h]) fun x y => ?_
      exact iff_of_true (.refl _) (.hidden (.inr rfl))
    | _ => simp [hideToolVersion, sameBut_iff_eq]
  | _ => cases w <;> simp [hideToolVersion, sameBut_iff_eq]

theorem sameBut_hideVersion {v w : Json} (hv : HasOutline v) (hw : HasOutline w) :
    SameBut EndsInTime (hideVersion v) (hideVersion w) ↔ SameBut (IsVolatile v) v w := by
  have hobj {v : Json} (h : HasOutline v) : ∃ fs, v = .obj fs := by
    obtain ⟨x, hx⟩ := h "tool" (by simp)
    obtain ⟨fs, hfs, -⟩ := Option.bind_eq_some_iff.1 hx
    cases v with
    | obj fields => exact ⟨fields, rfl⟩
    | _ => cases hfs
  obtain ⟨fs, rfl⟩ := hobj hv
  obtain ⟨gs, rfl⟩ := hobj hw
  rw [hideVersion_of_isReport (isReport_iff.2 hv), hideVersion_of_isReport (isReport_iff.2 hw)]
  refine sameBut_mapField ?_ (fun other p h => ?_) fun x y => ?_
  · simp [isVolatile_iff]
  · simp [isVolatile_iff, h]
  · rw [sameBut_hideToolVersion]
    simp [isVolatile_iff, hv]

/-! ### What stays -/

/-- The names of its fields decide whether a value has the outline of a report. -/
theorem isReport_congr {fs gs : List (String × Json)} (h : fs.map Prod.fst = gs.map Prod.fst) :
    isReport (.obj fs) = isReport (.obj gs) := by
  have hlookup (fs : List (String × Json)) (name : String) :
      ((Json.obj fs).get? name).isSome = true ↔ name ∈ fs.map Prod.fst := by
    change (fs.lookup name).isSome = true ↔ _
    rw [List.lookup_isSome_iff, List.mem_map]
    exact exists_congr fun e => and_congr_right fun _ => by rw [beq_iff_eq, eq_comm]
  rw [Bool.eq_iff_iff]
  simp only [isReport, List.all_eq_true, hlookup, h]

theorem isReport_hideTimes (v : Json) : isReport (hideTimes v) = isReport v := by
  cases v with
  | obj fs =>
    rw [hideTimes_obj]
    exact isReport_congr List.map_map
  | _ => rfl

theorem isReport_hideVersion (v : Json) : isReport (hideVersion v) = isReport v := by
  cases v with
  | obj fs =>
    rw [hideVersion]
    split
    · rw [mapField_eq_map]
      exact isReport_congr List.map_map
    · rfl
  | _ => rfl

theorem isReport_normalize (v : Json) : isReport (normalize v) = isReport v := by
  rw [normalize, isReport_hideTimes, isReport_hideVersion]

theorem isReport_eq_of_sameBut {P : List Step → Prop} {v w : Json} (hroot : ¬P [])
    (h : SameBut P v w) : isReport v = isReport w := by
  cases h with
  | hidden h => exact absurd h hroot
  | refl => rfl
  | arr => rfl
  | obj hnames => exact isReport_congr hnames

theorem normalize_eq_iff (v w : Json) :
    normalize v = normalize w ↔ SameBut (IsVolatile v) v w := by
  have htimes (v w : Json) : SameBut EndsInTime v w ↔ hideTimes v = hideTimes w := by
    rw [sameBut_iff_hideTimes fun _ _ => Iff.rfl]
    simp [EndsInTime]
  by_cases hsame : isReport v = isReport w
  · rw [normalize, normalize, ← htimes]
    by_cases hv : isReport v = true
    · exact sameBut_hideVersion (isReport_iff.1 hv) (isReport_iff.1 (hsame ▸ hv))
    · have hv' : ¬HasOutline v := fun h => hv (isReport_iff.2 h)
      have hplaces : IsVolatile v = EndsInTime := by
        funext p
        simp [isVolatile_iff, hv']
      rw [hideVersion_of_not_isReport hv, hideVersion_of_not_isReport (hsame ▸ hv), hplaces]
  · -- The outline of a report is kept by either side.
    refine iff_of_false (fun h => hsame ?_) (fun h => hsame ?_)
    · rw [← isReport_normalize v, h, isReport_normalize]
    · exact isReport_eq_of_sameBut (by simp [isVolatile_iff, EndsInTime]) h

/-! ### A second time -/

theorem hideTimes_hideTimes (v : Json) : hideTimes (hideTimes v) = hideTimes v := by
  induction v using Json.induction_children with
  | h v ih =>
  cases v with
  | arr vs =>
    simp only [hideTimes_arr, List.map_map]
    exact congrArg Json.arr (List.map_congr_left ih)
  | obj fs =>
    simp only [hideTimes_obj, List.map_map]
    refine congrArg Json.obj (List.map_congr_left fun e he => ?_)
    have hvalue : hideTimes (hideTimes e.2) = hideTimes e.2 := ih e.2 (List.mem_map_of_mem he)
    by_cases h : isTimeField e.1 = true <;> simp [hideTimesField, h, hvalue]
  | _ => rfl

theorem mapField_mapField (name : String) (f g : Json → Json) (fs : List (String × Json)) :
    mapField name f (mapField name g fs) = mapField name (fun v => f (g v)) fs := by
  simp only [mapField_eq_map, List.map_map]
  refine List.map_congr_left fun e _ => ?_
  by_cases h : e.1 = name <;> simp [h]

/-- A field that holds no time may be hidden before the times or after them. -/
theorem map_hideTimesField_mapField {name : String} {f : Json → Json}
    (hname : isTimeField name = false) (hf : ∀ v, hideTimes (f v) = f (hideTimes v))
    (fs : List (String × Json)) :
    (mapField name f fs).map hideTimesField = mapField name f (fs.map hideTimesField) := by
  simp only [mapField_eq_map, List.map_map]
  refine List.map_congr_left fun e _ => ?_
  by_cases h : e.1 = name <;> simp [hideTimesField, h, hname, hf]

theorem hideToolVersion_hideToolVersion (v : Json) :
    hideToolVersion (hideToolVersion v) = hideToolVersion v := by
  cases v with
  | obj fs => exact congrArg Json.obj (mapField_mapField _ _ _ fs)
  | _ => rfl

theorem hideTimes_hideToolVersion (v : Json) :
    hideTimes (hideToolVersion v) = hideToolVersion (hideTimes v) := by
  cases v with
  | obj fs =>
    rw [hideToolVersion, hideTimes_obj, hideTimes_obj, hideToolVersion,
      map_hideTimesField_mapField (by decide) fun _ => by rfl]
  | arr vs => rw [hideToolVersion, hideTimes_arr, hideToolVersion] <;> simp
  | _ => rfl

theorem hideVersion_hideVersion (v : Json) : hideVersion (hideVersion v) = hideVersion v := by
  by_cases h : isReport v = true
  · cases v with
    | obj fs =>
      have h' : isReport (hideVersion (.obj fs)) = true := by rw [isReport_hideVersion, h]
      rw [hideVersion_of_isReport h] at h' ⊢
      rw [hideVersion_of_isReport h', mapField_mapField]
      simp only [hideToolVersion_hideToolVersion]
    | _ => rfl
  · rw [hideVersion_of_not_isReport h, hideVersion_of_not_isReport h]

/-- What keeps the outline of a report and goes with the hiding of the tool's version goes with the
hiding of the version. -/
theorem hideVersion_comm {g : Json → Json} {G : List (String × Json) → List (String × Json)}
    (hobj : ∀ fs, g (.obj fs) = .obj (G fs)) (hreport : ∀ v, isReport (g v) = isReport v)
    (hG : ∀ fs, G (mapField "tool" hideToolVersion fs) = mapField "tool" hideToolVersion (G fs))
    (v : Json) : g (hideVersion v) = hideVersion (g v) := by
  by_cases h : isReport v = true
  · cases v with
    | obj fs =>
      have h' : isReport (.obj (G fs)) = true := by rw [← hobj, hreport, h]
      rw [hideVersion_of_isReport h, hobj, hobj, hideVersion_of_isReport h', hG]
    | _ => cases h
  · have h' : ¬isReport (g v) = true := by rwa [hreport]
    rw [hideVersion_of_not_isReport h, hideVersion_of_not_isReport h']

theorem hideTimes_hideVersion (v : Json) :
    hideTimes (hideVersion v) = hideVersion (hideTimes v) :=
  hideVersion_comm hideTimes_obj isReport_hideTimes
    (map_hideTimesField_mapField (by decide) hideTimes_hideToolVersion) v

theorem normalize_normalize (v : Json) : normalize (normalize v) = normalize v := by
  rw [normalize, normalize, ← hideTimes_hideVersion, hideTimes_hideTimes, hideVersion_hideVersion]

/-! ### The order of fields -/

/-- What is done to the value of each field may be done before the fields are ordered. -/
theorem canonicalFields_map {f : String → Json → Json} {fs : List (String × Json)}
    (h : ∀ e ∈ fs, (f e.1 e.2).canonical = f e.1 e.2.canonical) :
    (Json.canonicalFields (fs.map fun e => (e.1, f e.1 e.2))).entries =
      (Json.canonicalFields fs).entries.map fun e => (e.1, f e.1 e.2) := by
  induction fs with
  | nil => rfl
  | cons e r ih =>
    obtain ⟨he, hr⟩ := List.forall_mem_cons.1 h
    change KeyMap.insertEntry e.1 (f e.1 e.2).canonical _ =
      (KeyMap.insertEntry e.1 e.2.canonical _).map _
    rw [ih hr, he, KeyMap.map_insertEntry]

theorem canonical_hideTimes (v : Json) : (hideTimes v).canonical = hideTimes v.canonical := by
  induction v using Json.induction_children with
  | h v ih =>
  cases v with
  | arr vs =>
    simp only [hideTimes_arr, Json.canonical_arr, List.map_map]
    exact congrArg Json.arr (List.map_congr_left ih)
  | obj fs =>
    rw [hideTimes_obj, Json.canonical, Json.canonical, hideTimes_obj]
    refine congrArg Json.obj (canonicalFields_map (f := fun name v =>
      if isTimeField name then timePlaceholder else hideTimes v) fun e he => ?_)
    have hvalue : (hideTimes e.2).canonical = hideTimes e.2.canonical :=
      ih e.2 (List.mem_map_of_mem he)
    by_cases h : isTimeField e.1 = true
    · simp only [if_pos h]
      rfl
    · simp only [if_neg h, hvalue]
  | _ => rfl

theorem canonicalFields_mapField {name : String} {f : Json → Json}
    (hf : ∀ v, (f v).canonical = f v.canonical) (fs : List (String × Json)) :
    (Json.canonicalFields (mapField name f fs)).entries =
      mapField name f (Json.canonicalFields fs).entries := by
  rw [mapField_eq_map, mapField_eq_map]
  refine canonicalFields_map (f := fun other v => if other = name then f v else v) fun e _ => ?_
  by_cases h : e.1 = name <;> simp [h, hf]

theorem canonical_hideToolVersion (v : Json) :
    (hideToolVersion v).canonical = hideToolVersion v.canonical := by
  cases v with
  | obj fs =>
    rw [hideToolVersion, Json.canonical, Json.canonical, hideToolVersion]
    exact congrArg Json.obj (canonicalFields_mapField (f := fun _ => versionPlaceholder)
      (fun _ => rfl) fs)
  | arr vs => rw [hideToolVersion, Json.canonical_arr, hideToolVersion] <;> simp
  | _ => rfl

theorem isReport_canonical (v : Json) : isReport v.canonical = isReport v := by
  simp only [isReport, Json.get?_canonical, Option.isSome_map]

theorem canonical_hideVersion (v : Json) : (hideVersion v).canonical = hideVersion v.canonical :=
  hideVersion_comm (fun fs => by rw [Json.canonical]) isReport_canonical
    (canonicalFields_mapField canonical_hideToolVersion) v

theorem canonical_normalize (v : Json) : (normalize v).canonical = normalize v.canonical := by
  rw [normalize, normalize, canonical_hideTimes, canonical_hideVersion]

/-- Normalizing changes nothing but the volatile values, and tells two values apart exactly when
they differ in anything else. Once is enough, and the order of the fields does not matter. -/
theorem normalize_hides (v : Json) :
    normalize (normalize v) = normalize v ∧
      SameBut (IsVolatile v) v (normalize v) ∧
      (∀ w, normalize v = normalize w ↔ SameBut (IsVolatile v) v w) ∧
      (normalize v).canonical = normalize v.canonical :=
  ⟨normalize_normalize v, (normalize_eq_iff v _).1 (normalize_normalize v).symm,
    normalize_eq_iff v, canonical_normalize v⟩

end StackAudit.Golden
