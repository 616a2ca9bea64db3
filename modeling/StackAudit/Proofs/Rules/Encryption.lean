import StackAudit.Proofs.Rules.Items

/-!
# Encryption by default

A bucket is encrypted when its configuration has a rule that applies an algorithm by default. The rule
about encryption reads the normal form of that configuration. Where there is no configuration, it
reads whatever the declaration has under the name of the normal form, and a bucket may pass by it.
-/
namespace StackAudit

open Json (FirstOf Unset)

/-- The spellings of the configuration of encryption. -/
def configurationSpellings : List String :=
  ["serverSideEncryptionConfiguration", "server_side_encryption_configuration"]

/-- The properties of a bucket have a configuration of encryption, whatever it says. -/
def IsConfigured (properties : Json) : Prop :=
  ∃ configuration, properties.FirstOf configurationSpellings configuration

/-- The rule of a configuration applies an algorithm by default. -/
def AppliesEncryption (rule : Json) : Prop :=
  ∃ byDefault s, rule.FirstOf
      ["applyServerSideEncryptionByDefault", "apply_server_side_encryption_by_default"] byDefault ∧
    byDefault.FirstOf ["sseAlgorithm", "sse_algorithm"] (.str s) ∧ ¬Text.IsBlankText s

/-- The properties of a bucket have a configuration with a rule, alone or in a list, that applies an
algorithm by default. -/
def DeclaresEncryption (properties : Json) : Prop :=
  ∃ configuration rules, properties.FirstOf configurationSpellings configuration ∧
    configuration.FirstOf ["rules", "rule"] rules ∧ ∃ rule ∈ rules.oneOrMany, AppliesEncryption rule

/-- What is declared where the normal form keeps its rules. -/
def strayRules? (properties : Json) : Option Json :=
  (properties.get? "serverSideEncryption").bind (·.get? "rules")

/-- The properties of a bucket name an algorithm where the normal form has it. -/
def StrayEncryption (properties : Json) : Prop :=
  ∃ items, strayRules? properties = some (.arr items) ∧ ∃ item ∈ items, item.HasText "algorithm"

/-- Nothing but a sequence is declared where the normal form keeps its rules. -/
def StrayListed (properties : Json) : Prop :=
  Unset (strayRules? properties) ∨ ∃ items, strayRules? properties = some (.arr items)

namespace Adapters

open Json (firstOf?)

variable {d : Declaration}

theorem get?_algorithm (algorithm key flag : Option Json) :
    (Json.ofFields [("algorithm", algorithm), ("kmsMasterKeyId", key),
      ("bucketKeyEnabled", flag)]).get? "algorithm" = algorithm.map Json.canonical := by
  rw [Json.get?_ofFields]
  cases algorithm <;> rfl

/-- A rule of the normal form names an algorithm exactly when the declared rule applies one. -/
theorem exists_hasText_iff {rule : Json} {kept : Option Json}
    (h : encryptionRule d rule = .ok kept) :
    (∃ item ∈ kept, item.HasText "algorithm") ↔ AppliesEncryption rule := by
  unfold encryptionRule at h
  split at h
  · rename_i fields
    split at h
    · rename_i hnone
      cases h
      simp only [Option.mem_def, reduceCtorEq, false_and, exists_false, false_iff]
      rintro ⟨byDefault, s, hdefault, -⟩
      rw [Json.firstOf?_eq_some_iff.2 hdefault] at hnone
      cases hnone
    · rename_i byDefault hdefault
      cases h
      rw [Json.firstOf?_eq_some_iff] at hdefault
      simp only [Option.mem_def, Option.some.injEq, exists_eq_left', Json.HasText,
        get?_algorithm, Option.map_eq_some_iff, Json.canonical_eq_str_iff, exists_eq_right,
        Json.firstOf?_eq_some_iff]
      constructor
      · rintro ⟨s, halgorithm, hs⟩
        exact ⟨_, s, hdefault, halgorithm, hs⟩
      · rintro ⟨byDefault', s, hdefault', halgorithm, hs⟩
        obtain rfl := hdefault.unique hdefault'
        exact ⟨s, halgorithm, hs⟩
    · cases h
  · cases h

/-- The normal form of a configuration names an algorithm exactly when a declared rule applies one. -/
theorem exists_items_of_encryption {configuration w : Json}
    (h : encryption d configuration = .ok w) :
    ∃ items, w.get? "rules" = some (.arr items) ∧
      ((∃ item ∈ items, item.HasText "algorithm") ↔
        ∃ rules, configuration.FirstOf ["rules", "rule"] rules ∧
          ∃ rule ∈ rules.oneOrMany, AppliesEncryption rule) := by
  unfold encryption at h
  split at h
  · rename_i fields
    obtain ⟨kept, hkept, h⟩ := bind_eq_ok_iff.1 h
    cases h
    refine ⟨_, rfl, ?_⟩
    have hrules (rule : Json) :
        rule ∈ ((firstOf? fields ["rules", "rule"]).map Json.oneOrMany).getD [] ↔
          ∃ rules, (Json.obj fields).FirstOf ["rules", "rule"] rules ∧ rule ∈ rules.oneOrMany := by
      simp only [← Json.firstOf?_eq_some_iff]
      cases firstOf? fields ["rules", "rule"] <;> simp
    constructor
    · rintro ⟨item, hitem, htext⟩
      obtain ⟨rule, hrule, hitem⟩ :=
        (mem_iff_of_mapM_eq_ok hkept).1 (by simpa using hitem : some item ∈ kept)
      obtain ⟨rules, hfirst, hrule⟩ := (hrules rule).1 hrule
      exact ⟨rules, hfirst, rule, hrule, (exists_hasText_iff hitem).1 ⟨item, rfl, htext⟩⟩
    · rintro ⟨rules, hfirst, rule, hrule, happlies⟩
      have hmem := (hrules rule).2 ⟨rules, hfirst, hrule⟩
      obtain ⟨o, ho⟩ := exists_of_mem_of_mapM_eq_ok hkept hmem
      obtain ⟨item, hitem, htext⟩ := (exists_hasText_iff ho).2 happlies
      refine ⟨item, ?_, htext⟩
      have hin := (mem_iff_of_mapM_eq_ok hkept).2 ⟨rule, hmem, ho⟩
      rw [Option.mem_def.1 hitem] at hin
      simpa using hin
  · cases h

end Adapters

namespace Rules

variable {r : Resource}

/-- With a sequence at hand the rule decides whether an item names an algorithm. -/
theorem decides_of_itemsAt {items : List Json}
    (h : itemsAt r "serverSideEncryption.rules" = .ok items) (g : Graph) :
    encryptionRequired.Decides r g (∃ item ∈ items, item.HasText "algorithm") :=
  decides_of_firstText? rfl h

theorem property?_encryptionRules (r : Resource) :
    r.property? "serverSideEncryption.rules" =
      (r.properties.get? "serverSideEncryption").bind (·.get? "rules") :=
  r.property?_of_pair (by decide +kernel) (by decide) (by decide) (by decide +kernel)

variable {d : Declaration} {a : Adapted}

/-- A bucket with a configuration is judged by it. -/
theorem decides_of_configuration (h : Adapters.bucket d = .ok a) {configuration : Json}
    (hconfiguration : d.properties.FirstOf configurationSpellings configuration) (g : Graph) :
    encryptionRequired.Decides a.resource g (DeclaresEncryption d.properties) := by
  obtain ⟨-, hrewritten, -⟩ := Adapters.rewritten_of_bucket h
  obtain ⟨configuration', w, hfirst, hw, hget⟩ :=
    hrewritten.resolve_right fun hkept => hkept.1 ⟨configuration, hconfiguration⟩
  obtain rfl := hfirst.unique hconfiguration
  obtain ⟨items, hitems, hdeclared⟩ := Adapters.exists_items_of_encryption hw
  have hproperty : a.resource.property? "serverSideEncryption.rules" = some (.arr items) := by
    rw [property?_encryptionRules, hget, Option.bind_some, hitems]
  refine (decides_of_itemsAt (itemsAt_of_arr hproperty) g).iff.2 (hdeclared.trans ?_)
  constructor
  · rintro ⟨rules, hrules, happlies⟩
    exact ⟨_, rules, hconfiguration, hrules, happlies⟩
  · rintro ⟨configuration, rules, hfirst', hrules, happlies⟩
    obtain rfl := hconfiguration.unique hfirst'
    exact ⟨rules, hrules, happlies⟩

/-- A bucket without a configuration is judged by what stands in the place of the normal form. -/
theorem property?_of_not_configured (h : Adapters.bucket d = .ok a)
    (hnone : ¬IsConfigured d.properties) :
    a.resource.property? "serverSideEncryption.rules" =
      (strayRules? d.properties).map Json.canonical := by
  obtain ⟨-, hrewritten, -⟩ := Adapters.rewritten_of_bucket h
  have hget := (hrewritten.resolve_left fun ⟨v, _, hv, _⟩ => hnone ⟨v, hv⟩).2
  rw [property?_encryptionRules, strayRules?, hget]
  cases d.properties.get? "serverSideEncryption" <;> simp [Json.get?_canonical]

theorem not_declaresEncryption
    (hnone : ¬IsConfigured d.properties) : ¬DeclaresEncryption d.properties := by
  rintro ⟨configuration, rules, hfirst, -⟩
  exact hnone ⟨configuration, hfirst⟩

theorem decides_strayEncryption (h : Adapters.bucket d = .ok a)
    (hnone : ¬IsConfigured d.properties)
    (hlisted : StrayListed d.properties) (g : Graph) :
    encryptionRequired.Decides a.resource g (StrayEncryption d.properties) := by
  have hproperty := property?_of_not_configured h hnone
  rcases hlisted with hunset | ⟨items, hitems⟩
  · have hjudged := decides_of_itemsAt (itemsAt_of_unset (r := a.resource)
      (hproperty ▸ Json.unset_map_canonical_iff.2 hunset)) g
    refine hjudged.iff.2 ⟨by simp, ?_⟩
    rintro ⟨items, hitems, -⟩
    rcases hunset with hunset | hunset <;> simp [hunset] at hitems
  · rw [hitems, Option.map_some, Json.canonical_arr] at hproperty
    refine (decides_of_itemsAt (itemsAt_of_arr hproperty) g).iff.2 ?_
    simp only [List.mem_map, exists_exists_and_eq_and, Json.hasText_canonical_iff,
      StrayEncryption, hitems, Option.some.injEq, Json.arr.injEq, exists_eq_left']

/-- Anything but a sequence in that place stops the rule. -/
theorem judge_of_not_strayListed (h : Adapters.bucket d = .ok a)
    (hnone : ¬IsConfigured d.properties)
    (hlisted : ¬StrayListed d.properties) (g : Graph) :
    encryptionRequired.judge a.resource g =
      .error (.unexpectedShape "serverSideEncryption.rules" "a sequence") := by
  have hproperty := property?_of_not_configured h hnone
  have hset : ¬Unset (a.resource.property? "serverSideEncryption.rules") := by
    rw [hproperty, Json.unset_map_canonical_iff]
    exact fun hunset => hlisted (.inl hunset)
  have harr : ∀ items, a.resource.property? "serverSideEncryption.rules" ≠ some (.arr items) := by
    intro items hitems
    rw [hproperty, Option.map_eq_some_iff] at hitems
    obtain ⟨v, hv, hitems⟩ := hitems
    cases v with
    | arr stray => exact hlisted (.inr ⟨stray, hv⟩)
    | _ => simp [Json.canonical] at hitems
  have hitemsAt := itemsAt_of_misshaped hset harr
  simp only [encryptionRequired, hitemsAt]
  rfl

/-- The verdict on a bucket goes by its configuration, and where there is none by what stands in the
place of the normal form. So it goes by the configuration alone unless there is none and an algorithm
is named in that place. The rule itself concludes unless something else than a sequence stands
there. -/
theorem reports_declaresEncryption_iff (h : Adapters.bucket d = .ok a) (g : Graph) :
    encryptionRequired.Reports a.resource g (DeclaresEncryption d.properties ∨
        ¬IsConfigured d.properties ∧ StrayEncryption d.properties) ∧
      (encryptionRequired.Reports a.resource g (DeclaresEncryption d.properties) ↔
        IsConfigured d.properties ∨ ¬StrayEncryption d.properties) ∧
      (encryptionRequired.Decides a.resource g (DeclaresEncryption d.properties) ↔
        IsConfigured d.properties ∨
          StrayListed d.properties ∧ ¬StrayEncryption d.properties) := by
  by_cases hconfigured : IsConfigured d.properties
  · obtain ⟨configuration, hconfiguration⟩ := hconfigured
    have hdecides := decides_of_configuration h hconfiguration g
    have hset : IsConfigured d.properties := ⟨configuration, hconfiguration⟩
    exact ⟨hdecides.reports.iff.2 (by simp [hset]), iff_of_true hdecides.reports (.inl hset),
      iff_of_true hdecides (.inl hset)⟩
  · have hundeclared := not_declaresEncryption hconfigured
    by_cases hlisted : StrayListed d.properties
    · have hdecides := decides_strayEncryption h hconfigured hlisted g
      rw [hdecides.reports.iff, hdecides.reports.iff, hdecides.iff]
      simp [hconfigured, hundeclared, hlisted]
    · have hfails := judge_of_not_strayListed h hconfigured hlisted g
      have hstray : ¬StrayEncryption d.properties := by
        rintro ⟨items, hitems, -⟩
        exact hlisted (.inr ⟨items, hitems⟩)
      have hreports := Rule.reports_of_error hfails hundeclared
      exact ⟨hreports.iff.2 (by simp [hundeclared, hstray]),
        iff_of_true hreports (.inr hstray),
        iff_of_false (Rule.not_decides_of_error hfails) (by simp [hconfigured, hlisted])⟩

/-- The properties of a bucket that names an algorithm in the place of the normal form. -/
def strayProperties : List (String × Json) :=
  [("serverSideEncryption", .obj [("rules", .arr [.obj [("algorithm", .str "none")]])])]

/-- A rule that applies an algorithm, with the second spelling of each key. -/
def snakeCaseRule : Json :=
  .obj [("apply_server_side_encryption_by_default",
    .obj [("sseAlgorithm", .null), ("sse_algorithm", .str "aws:kms")])]

/-- A configuration with two rules, of which the second applies an algorithm. -/
def snakeCaseConfiguration : Json :=
  .obj [("rule", .arr [.obj [("bucketKeyEnabled", .bool true)], snakeCaseRule])]

/-- What stands in the place of the normal form does not matter beside a configuration. -/
theorem reports_declaresEncryption_configured :
    let d := bucketDeclaration (.obj (("serverSideEncryptionConfiguration", .null) ::
      ("server_side_encryption_configuration", snakeCaseConfiguration) :: strayProperties))
    ∃ a, Adapters.bucket d = .ok a ∧
      (Evaluation.ofRule encryptionRequired a.resource .empty).outcome = .pass := by
  intro d
  obtain ⟨a, ha, -⟩ : ∃ a, Adapters.bucket d = .ok a ∧ a.resource.id = "b" :=
    exists_eq_ok_of_map (by decide +kernel)
  have hconfiguration : d.properties.FirstOf configurationSpellings snakeCaseConfiguration :=
    .later (.inr rfl) (.here rfl (by decide))
  have hvisible : ¬Text.IsBlankText "aws:kms" := by
    intro hblank
    exact absurd (hblank 'a' (by decide)) (by decide)
  have happlies : AppliesEncryption snakeCaseRule :=
    ⟨_, "aws:kms", .later (.inl rfl) (.here rfl (by decide)),
      .later (.inr rfl) (.here rfl (by decide)), hvisible⟩
  have hdeclares : DeclaresEncryption d.properties :=
    ⟨_, _, hconfiguration, .later (.inl rfl) (.here rfl (by decide)), snakeCaseRule,
      by simp [Json.oneOrMany], happlies⟩
  have hreports := (reports_declaresEncryption_iff ha .empty).2.1.2 (.inl ⟨_, hconfiguration⟩)
  exact ⟨a, ha, hreports.1.2 hdeclares⟩

/-- A bucket without any configuration of encryption that passes. -/
theorem not_reports_declaresEncryption :
    let d := bucketDeclaration (.obj strayProperties)
    ∃ a, Adapters.bucket d = .ok a ∧
      (Evaluation.ofRule encryptionRequired a.resource .empty).outcome = .pass ∧
      ¬encryptionRequired.Reports a.resource .empty (DeclaresEncryption d.properties) := by
  intro d
  obtain ⟨a, ha, hpass⟩ : ∃ a, Adapters.bucket d = .ok a ∧
      (Evaluation.ofRule encryptionRequired a.resource .empty).outcome = .pass :=
    exists_eq_ok_of_map (by decide +kernel)
  refine ⟨a, ha, hpass, fun hreports => ?_⟩
  obtain ⟨configuration, -, hfirst, -⟩ := hreports.1.1 hpass
  have hnone := Json.firstOf?_eq_some_iff.2 hfirst
  cases hnone

end Rules

end StackAudit
