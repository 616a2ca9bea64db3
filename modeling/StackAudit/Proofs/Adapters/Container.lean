import StackAudit.Proofs.Adapters
import StackAudit.Proofs.Json.Spellings

/-!
# What a container keeps

A container may be declared with flat flags beside a security context and resources of its own. The
declared resources are kept and so is what the context says about root. Two flat flags go over what
the context says, though: the one for all privileges, and the option that forbids to gain any.
-/
namespace StackAudit.Adapters

open Json (FirstOf firstOf?)

/-- The security options of a declaration forbid that processes gain privileges. -/
def OptionsForbid (properties : Json) : Prop :=
  ∃ options s, properties.FirstOf ["securityOpts", "security_opts"] (.arr options) ∧
    .str s ∈ options ∧ forbidsNewPrivileges s = true

/-- The flat flags of a declaration set a field of the security context, whatever the context says. -/
def Overrides (properties : Json) (k : String) (v : Json) : Prop :=
  k = "privileged" ∧ properties.FirstOf ["privileged"] v ∨
    k = "allowPrivilegeEscalation" ∧ OptionsForbid properties ∧ v = .bool false

variable {d : Declaration} {fields : List (String × Json)} {security : Json}

/-- The context that is declared is taken over as it is. -/
theorem declaredSecurity_of_obj {declared : List (String × Json)}
    (h : d.properties.get? "securityContext" = some (.obj declared)) :
    declaredSecurity d = .ok (Json.obj declared).canonical := by
  unfold declaredSecurity
  rw [d.get?_canonicalProperties, h, Option.map_some, Json.canonical]

theorem get?_addPrivileged (fields : List (String × Json)) (security : Json) (k : String) :
    (addPrivileged fields security).get? k =
      if k = "privileged" then
        ((firstOf? fields ["privileged"]).map Json.canonical).or (security.get? k)
      else security.get? k := by
  unfold addPrivileged
  cases firstOf? fields ["privileged"] with
  | none => simp
  | some v => rw [Json.get?_insert]; simp

/-- What the user says about root only fills a gap. -/
theorem get?_addUser_of_eq_some {k : String} {v : Json} (h : security.get? k = some v) :
    (addUser fields security).get? k = some v := by
  unfold addUser
  split
  · exact h
  · rename_i hunsaid
    split
    · exact h
    · rw [Json.get?_insert, if_neg, h]
      rintro rfl
      simp [h] at hunsaid

theorem any_forbidsNewPrivileges_iff {options : List Json} :
    (options.filterMap Json.asStr?).any forbidsNewPrivileges = true ↔
      ∃ s, .str s ∈ options ∧ forbidsNewPrivileges s = true := by
  have hmem (s : String) : s ∈ options.filterMap Json.asStr? ↔ .str s ∈ options := by
    rw [List.mem_filterMap]
    constructor
    · rintro ⟨v, hv, hs⟩
      cases v <;> simp_all [Json.asStr?]
    · intro hs
      exact ⟨_, hs, rfl⟩
  simp only [List.any_eq_true, hmem]

/-- An option that forbids to gain privileges is written over what the context says. -/
theorem get?_of_addOptions {security' : Json} (h : addOptions d fields security = .ok security')
    (k : String) :
    (k = "allowPrivilegeEscalation" ∧ OptionsForbid (.obj fields) →
      security'.get? k = some (.bool false)) ∧
    (¬(k = "allowPrivilegeEscalation" ∧ OptionsForbid (.obj fields)) →
      security'.get? k = security.get? k) := by
  unfold addOptions at h
  split at h
  · rename_i hnone
    cases h
    refine ⟨?_, fun _ => rfl⟩
    rintro ⟨-, options, s, hfirst, -⟩
    rw [Json.firstOf?_eq_some_iff.2 hfirst] at hnone
    cases hnone
  · rename_i options hfirst
    have hforbid : OptionsForbid (.obj fields) ↔
        (options.filterMap Json.asStr?).any forbidsNewPrivileges = true := by
      rw [any_forbidsNewPrivileges_iff]
      rw [Json.firstOf?_eq_some_iff] at hfirst
      constructor
      · rintro ⟨options', s, hfirst', hs⟩
        obtain rfl := Json.arr.inj (hfirst.unique hfirst')
        exact ⟨s, hs⟩
      · rintro ⟨s, hs⟩
        exact ⟨options, s, hfirst, hs⟩
    rw [hforbid]
    split at h
    · rename_i hany
      cases h
      rw [Json.get?_insert]
      exact ⟨fun hk => if_pos hk.1, fun hno => if_neg fun hk => hno ⟨hk, hany⟩⟩
    · rename_i hany
      cases h
      exact ⟨fun hk => absurd hk.2 hany, fun _ => rfl⟩
  · cases h

/-- Declared resources are kept. -/
theorem get?_addLimits_of_eq_some {properties : KeyMap Json} {v : Json}
    (h : properties.get? "resources" = some v) :
    (addLimits fields properties).get? "resources" = some v := by
  have hcontains : properties.contains "resources" = true := by
    rw [KeyMap.contains, h]
    rfl
  rw [addLimits, hcontains]
  exact h

theorem get?_addLimits_of_ne {properties : KeyMap Json} {k : String} (hk : k ≠ "resources") :
    (addLimits fields properties).get? k = properties.get? k := by
  unfold addLimits
  dsimp only
  split
  · rfl
  · rw [KeyMap.get?_insert, if_neg hk]

/-- A field of the security context that a resource has. -/
def securityField? (r : Resource) (k : String) : Option Json :=
  (r.properties.get? "securityContext").bind (·.get? k)

/-- The resource has every field of a security context, with its value. -/
def KeepsSecurity (security : Json) (r : Resource) : Prop :=
  ∀ k x, security.get? k = some x → securityField? r k = some x.canonical

theorem not_keepsSecurity_of_ne {r : Resource} {k : String} {x y : Json}
    (hx : security.get? k = some x) (hy : securityField? r k = some y) (hne : y ≠ x.canonical) :
    ¬KeepsSecurity security r := by
  intro hkeeps
  have hkept := hkeeps k x hx
  rw [hy] at hkept
  exact hne (Option.some.inj hkept)

/-- A field is what the flat flags set it to, and else what is declared. -/
theorem securityField?_of_container {a : Adapted} {declared : List (String × Json)}
    (h : container d = .ok a)
    (hdeclared : d.properties.get? "securityContext" = some (.obj declared)) (k : String) :
    (∀ v, Overrides d.properties k v → securityField? a.resource k = some v.canonical) ∧
      ∀ x, (Json.obj declared).get? k = some x → (¬∃ v, Overrides d.properties k v) →
        securityField? a.resource k = some x.canonical := by
  simp only [container, bind_eq_ok_iff, fields_eq_ok_iff, declaredSecurity_of_obj hdeclared] at h
  obtain ⟨fields, hd, start, hstart, security, hsecurity, h⟩ := h
  obtain rfl := Except.ok.inj hstart
  obtain rfl := Except.ok.inj h
  have hfield : securityField? (d.toResource .container (addLimits fields
      (d.canonicalProperties.insert "securityContext" security))) k = security.get? k := by
    rw [securityField?, Declaration.toResource, get?_addLimits_of_ne (by decide),
      KeyMap.get?_insert_self, Option.bind_some]
  rw [hfield, hd]
  obtain ⟨hforbid, hallow⟩ := get?_of_addOptions hsecurity k
  have hprivileged := get?_addPrivileged fields (Json.obj declared).canonical k
  refine ⟨?_, fun x hx hno => ?_⟩
  · rintro v (⟨rfl, hfirst⟩ | ⟨hk, hforbids, rfl⟩)
    · rw [if_pos rfl, Json.firstOf?_eq_some_iff.2 hfirst, Option.map_some, Option.some_or]
        at hprivileged
      rw [hallow fun hk => absurd hk.1 (by decide), get?_addUser_of_eq_some hprivileged]
    · rw [hforbid ⟨hk, hforbids⟩]
      simp [Json.canonical]
  · have hkept : (addPrivileged fields (Json.obj declared).canonical).get? k = some x.canonical := by
      rw [hprivileged, Json.get?_canonical, hx, Option.map_some]
      split
      · rename_i hk
        cases hfirst : firstOf? fields ["privileged"] with
        | none => rfl
        | some v => exact absurd ⟨v, .inl ⟨hk, Json.firstOf?_eq_some_iff.1 hfirst⟩⟩ hno
      · rfl
    rw [hallow fun hk => hno ⟨_, .inr ⟨hk.1, hk.2, rfl⟩⟩, get?_addUser_of_eq_some hkept]

/-- The declared security context is kept unless the flat flags set one of its fields to something
else: what they set is there, and every other field is kept. Declared resources are always kept. -/
theorem container_keeps_iff {a : Adapted} (h : container d = .ok a) :
    (∀ declared, d.properties.get? "securityContext" = some (.obj declared) →
      (KeepsSecurity (.obj declared) a.resource ↔
        ∀ k x v, (Json.obj declared).get? k = some x → Overrides d.properties k v →
          v.canonical = x.canonical) ∧
      ∀ k, (∀ v, Overrides d.properties k v → securityField? a.resource k = some v.canonical) ∧
        ∀ x, (Json.obj declared).get? k = some x → (¬∃ v, Overrides d.properties k v) →
          securityField? a.resource k = some x.canonical) ∧
    ∀ v, d.properties.get? "resources" = some v →
      a.resource.properties.get? "resources" = some v.canonical := by
  refine ⟨fun declared hdeclared => ?_, fun v hv => ?_⟩
  · have hfield := securityField?_of_container h hdeclared
    refine ⟨⟨fun hkeeps k x v hx hv => ?_, fun hsame k x hx => ?_⟩, hfield⟩
    · have hset := (hfield k).1 v hv
      rw [hkeeps k x hx] at hset
      exact (Option.some.inj hset).symm
    · by_cases hoverrides : ∃ v, Overrides d.properties k v
      · obtain ⟨v, hv⟩ := hoverrides
        rw [(hfield k).1 v hv, hsame k x v hx hv]
      · exact (hfield k).2 x hx hoverrides
  · simp only [container, bind_eq_ok_iff] at h
    obtain ⟨fields, -, start, -, security, -, h⟩ := h
    obtain rfl := Except.ok.inj h
    apply get?_addLimits_of_eq_some
    rw [KeyMap.get?_insert, if_neg (by decide), d.get?_canonicalProperties, hv, Option.map_some]

/-- The declaration of a container with the given properties. -/
def containerDeclaration (properties : List (String × Json)) : Declaration where
  doc := ⟨.here, 0, some "c"⟩
  typeToken := "docker:index/container:Container"
  id := "c"
  properties := .obj properties
  physicalId := none
  outputs := .obj []

/-- A user, a memory and a flag that says the same do not count beside a context and resources. -/
theorem container_keeps_beside_user :
    let security : Json := .obj [("runAsNonRoot", .bool true), ("privileged", .bool false)]
    let resources : Json := .obj [("limits", .obj [("cpu", .str "1")])]
    let d := containerDeclaration [("user", .str "root"), ("privileged", .bool false),
      ("securityContext", security), ("resources", resources),
      ("memory", .num (.ofNat 256 (by decide)))]
    ∃ a, container d = .ok a ∧ KeepsSecurity security a.resource ∧
      a.resource.properties.get? "resources" = some resources := by
  intro security resources d
  obtain ⟨a, ha, -⟩ : ∃ a, container d = .ok a ∧ a.resource.id = "c" :=
    exists_eq_ok_of_map (by decide +kernel)
  obtain ⟨hsecurity, hresources⟩ := container_keeps_iff ha
  refine ⟨a, ha, (hsecurity _ rfl).1.2 ?_, hresources resources rfl⟩
  rintro k x v hx (⟨rfl, hv⟩ | ⟨-, ⟨options, s, hoptions, -⟩, -⟩)
  · have hflag : d.properties.FirstOf ["privileged"] (.bool false) := .here rfl (by decide)
    rw [hv.unique hflag, Option.some.inj hx.symm]
  · have hnone := Json.firstOf?_eq_some_iff.2 hoptions
    cases hnone

/-- Two contexts that are not kept: one asks for all privileges beside a flag that says no, and one
lets processes gain privileges beside an option that forbids it. -/
theorem not_keepsSecurity_container :
    (let security : Json := .obj [("privileged", .bool true)]
     let d := containerDeclaration [("privileged", .bool false), ("securityContext", security)]
     ∃ a, container d = .ok a ∧ ¬KeepsSecurity security a.resource) ∧
    (let security : Json := .obj [("allowPrivilegeEscalation", .bool true)]
     let d := containerDeclaration
       [("securityOpts", .arr [.str "no-new-privileges"]), ("securityContext", security)]
     ∃ a, container d = .ok a ∧ ¬KeepsSecurity security a.resource) := by
  refine ⟨?_, ?_⟩
  · intro security d
    obtain ⟨a, ha, hfield⟩ : ∃ a, container d = .ok a ∧
        securityField? a.resource "privileged" = some (.bool false) :=
      exists_eq_ok_of_map (by decide +kernel)
    exact ⟨a, ha, not_keepsSecurity_of_ne rfl hfield (by decide)⟩
  · intro security d
    obtain ⟨a, ha, hfield⟩ : ∃ a, container d = .ok a ∧
        securityField? a.resource "allowPrivilegeEscalation" = some (.bool false) :=
      exists_eq_ok_of_map (by decide +kernel)
    exact ⟨a, ha, not_keepsSecurity_of_ne rfl hfield (by decide)⟩

end StackAudit.Adapters
