import StackAudit.Proofs.Policy
import StackAudit.Proofs.Rules.AccessBlock
import StackAudit.Proofs.Rules.Items
import StackAudit.Proofs.Verdicts

/-!
# Access lists, versioning and access logs

The rules about these settings of a bucket read the forms that adapting the declaration left in the
properties. Each of the settings is kept under one of its own spellings, so nothing else can stand in
the place of a normal form, and the rules judge what was declared.
-/
namespace StackAudit

open Json (FirstOf Unset)

/-- The report has exactly one verdict of the rule on the resource: a pass if the property holds, and
else a violation. -/
def Report.Decides (r : Report) (id key : String) (P : Prop) : Prop :=
  ∃ v, r.verdicts.filter (fun v => v.subject = (id, key)) = [v] ∧
    (v.outcome = .pass ↔ P) ∧ (v.outcome = .violation ↔ ¬P)

/-- There is an access list, and it lets everyone in or is no text. -/
def HasPublicAcl (properties : Json) : Prop :=
  ∃ acl, properties.get? "acl" = some acl ∧ acl ≠ .null ∧
    (acl = .str "public-read" ∨ acl = .str "public-read-write" ∨ ∀ s, acl ≠ .str s)

/-- The value turns versioning on: by a truth value, or else by a status. -/
def TurnsVersioningOn (v : Json) : Prop :=
  v.get? "enabled" = some (.bool true) ∨
    (∀ b, v.get? "enabled" ≠ some (.bool b)) ∧ ∃ status,
      v.get? "status" = some (.str status) ∧ Text.eqIgnoringAsciiCase status "enabled" = true

def EnablesVersioning (properties : Json) : Prop :=
  ∃ v, properties.FirstOf ["versioning", "versioningConfiguration"] v ∧ TurnsVersioningOn v

/-- The entry names a bucket for access logs. -/
def HasLogTarget (entry : Json) : Prop :=
  ∃ target, entry.FirstOf ["targetBucket", "target_bucket"] (.str target) ∧
    ¬Text.IsBlankText target

/-- Access logs have a target, in a single entry or in one of a list. -/
def DeliversLogs (properties : Json) : Prop :=
  ∃ v, properties.FirstOf ["loggings", "logging"] v ∧ ∃ entry ∈ v.oneOrMany, HasLogTarget entry

theorem Report.decides_evaluate {c : Catalog} (hc : c.Keyed) {g : Graph} {s : Resource}
    (hs : s ∈ g.resources) {r : Rule} (hr : r ∈ c.rulesFor s.kind) {P : Prop}
    (h : r.Reports s g P) : (evaluate g c).Decides s.id r.key P :=
  ⟨_, filter_subject_evaluate hc hs hr, h⟩

namespace Adapters

variable {d : Declaration} {v w : Json}

theorem versioningEnabled_of_status (h : ∀ b, v.get? "enabled" ≠ some (.bool b)) :
    versioningEnabled v = true ↔ ∃ status, v.get? "status" = some (.str status) ∧
      Text.eqIgnoringAsciiCase status "enabled" = true := by
  unfold versioningEnabled
  split
  · rename_i b hbool
    exact absurd hbool (h b)
  · rename_i status hstatus _
    simp [hstatus]
  · rename_i hstatus
    simp only [Bool.false_eq_true, false_iff]
    intro hsome
    obtain ⟨status, hsome, -⟩ := hsome
    exact hstatus status hsome

theorem versioningEnabled_iff : versioningEnabled v = true ↔ TurnsVersioningOn v := by
  unfold TurnsVersioningOn
  by_cases hbool : ∃ b, v.get? "enabled" = some (.bool b)
  · obtain ⟨b, hb⟩ := hbool
    simp [versioningEnabled, hb]
  · rw [not_exists] at hbool
    simp only [hbool, false_or, versioningEnabled_of_status hbool, ne_eq, not_false_eq_true,
      implies_true, true_and]

theorem get?_of_versioning (h : versioning d v = .ok w) :
    w.get? "enabled" = some (.bool (versioningEnabled v)) := by
  unfold versioning at h
  split at h
  · cases h
    rw [Json.get?_insert, if_pos rfl]
  · cases h

/-- An entry of the normal form names a bucket exactly when the declared entry does. -/
theorem hasText_of_loggingTarget (h : loggingTarget d v = .ok w) :
    w.HasText "targetBucket" ↔ HasLogTarget v := by
  unfold loggingTarget at h
  split at h
  · rename_i fields
    cases h
    have hget (target pre : Option Json) :
        (Json.ofFields [("targetBucket", target), ("targetPrefix", pre)]).get? "targetBucket" =
          target.map Json.canonical := by
      rw [Json.get?_ofFields]
      cases target <;> rfl
    simp only [Json.HasText, HasLogTarget, hget, Option.map_eq_some_iff, Json.canonical_eq_str_iff,
      exists_eq_right, Json.firstOf?_eq_some_iff]
  · cases h

/-- The normal form of access logs has a target exactly when a declared entry has one. -/
theorem exists_items_of_logging (h : logging d v = .ok w) :
    ∃ items, w.get? "targets" = some (.arr items) ∧
      ((∃ item ∈ items, item.HasText "targetBucket") ↔
        ∃ entry ∈ v.oneOrMany, HasLogTarget entry) := by
  obtain ⟨items, hitems, h⟩ := bind_eq_ok_iff.1 h
  cases h
  refine ⟨items, rfl, ?_⟩
  constructor
  · intro htext
    obtain ⟨item, hitem, htext⟩ := htext
    obtain ⟨entry, hentry, heq⟩ := (mem_iff_of_mapM_eq_ok hitems).1 hitem
    exact ⟨entry, hentry, (hasText_of_loggingTarget heq).1 htext⟩
  · intro htarget
    obtain ⟨entry, hentry, htarget⟩ := htarget
    obtain ⟨item, heq⟩ := exists_of_mem_of_mapM_eq_ok hitems hentry
    have hitem := (mem_iff_of_mapM_eq_ok hitems).2 ⟨entry, hentry, heq⟩
    exact ⟨item, hitem, (hasText_of_loggingTarget heq).2 htarget⟩

end Adapters

namespace Rules

variable {r : Resource} {d : Declaration} {g : Graph}

/-! ### What the rules read -/

theorem judge_noPublicAcl_of_unset (h : Unset (r.property? "acl")) :
    noPublicAcl.judge r g = .ok (.pass "no canned ACL set") := by
  have hnone := Json.bind_nonNull?_eq_none_iff.2 h
  simp only [noPublicAcl, hnone]

theorem decides_noPublicAcl_of_text {acl : String} (h : r.property? "acl" = some (.str acl)) :
    noPublicAcl.Decides r g (acl ∉ publicAcls) := by
  have hsome : (r.property? "acl").bind Json.nonNull? = some (.str acl) := by
    rw [h]
    rfl
  by_cases hpublic : publicAcls.contains acl = true
  · have hmem := List.contains_iff_mem.1 hpublic
    have hjudge : noPublicAcl.judge r g = .ok (.violation
        s!"bucket '{r.displayName}' grants public access through canned ACL '{acl}'") := by
      simp only [noPublicAcl, hsome, if_pos hpublic]
    exact Rule.decides_of_judge hjudge (fun hnot => absurd hmem hnot) (fun _ => rfl)
  · have hmem := mt List.contains_iff_mem.2 hpublic
    have hjudge : noPublicAcl.judge r g = .ok (.pass s!"canned ACL '{acl}' is not public") := by
      simp only [noPublicAcl, hsome, if_neg hpublic]
    exact Rule.decides_of_judge hjudge (fun _ => rfl) (fun hnot => absurd hmem hnot)

theorem judge_noPublicAcl_of_misshaped {acl : Json} (h : r.property? "acl" = some acl)
    (hset : acl ≠ .null) (htext : ∀ s, acl ≠ .str s) :
    noPublicAcl.judge r g = .error (.unexpectedShape "acl" "a string") := by
  have hsome := Json.bind_nonNull?_eq_some_iff.2 ⟨h, hset⟩
  cases acl with
  | str s => exact absurd rfl (htext s)
  | _ => simp only [noPublicAcl, hsome]

theorem property?_versioning (r : Resource) : r.property? "versioning.enabled" =
    (r.properties.get? "versioning").bind (·.get? "enabled") :=
  r.property?_of_pair (by decide) (by decide) (by decide) (by decide)

theorem decides_versioningRequired (r : Resource) (g : Graph) :
    versioningRequired.Decides r g
      (((r.properties.get? "versioning").bind (·.get? "enabled")).any Json.isTrue = true) := by
  rw [← property?_versioning]
  by_cases hon : (r.property? "versioning.enabled").any Json.isTrue = true
  · have hjudge : versioningRequired.judge r g = .ok (.pass "versioning is enabled") := by
      simp only [versioningRequired, if_pos hon]
    exact Rule.decides_of_judge hjudge (fun _ => rfl) (fun hnot => absurd hon hnot)
  · have hjudge : versioningRequired.judge r g =
        .ok (.violation s!"bucket '{r.displayName}' does not enable versioning") := by
      simp only [versioningRequired, if_neg hon]
    exact Rule.decides_of_judge hjudge (fun h => absurd h hon) (fun _ => rfl)

theorem property?_logging (r : Resource) : r.property? "logging.targets" =
    (r.properties.get? "logging").bind (·.get? "targets") :=
  r.property?_of_pair (by decide) (by decide) (by decide) (by decide)

theorem decides_accessLoggingRecommended {items : List Json}
    (h : itemsAt r "logging.targets" = .ok items) :
    accessLoggingRecommended.Decides r g (∃ item ∈ items, item.HasText "targetBucket") :=
  decides_of_firstText? rfl h

/-! ### The rules on adapted properties -/

theorem reports_noPublicAcl
    (h : Adapters.Rewritten d.properties ["acl"] "acl" (fun v => .ok v.canonical)
      (r.properties.get? "acl")) :
    noPublicAcl.Reports r g (¬HasPublicAcl d.properties) := by
  have hproperty : r.property? "acl" = r.properties.get? "acl" :=
    property?_of_not_mem (by decide)
  by_cases hdeclared : ∃ v, d.properties.FirstOf ["acl"] v
  · obtain ⟨v, w, hv, hw, hget⟩ := h.resolve_right fun hkept => hkept.1 hdeclared
    obtain rfl := Except.ok.inj hw
    rw [hget] at hproperty
    obtain ⟨hacl, hset⟩ := Json.firstOf_singleton_iff.1 hv
    by_cases htext : ∃ s, v = .str s
    · obtain ⟨s, rfl⟩ := htext
      have hdecides := decides_noPublicAcl_of_text (g := g) hproperty
      refine (hdecides.iff.2 ?_).reports
      simp [HasPublicAcl, hacl, publicAcls]
    · rw [not_exists] at htext
      have hjudge := judge_noPublicAcl_of_misshaped (g := g) hproperty
        (mt Json.canonical_eq_null_iff.1 hset)
        fun s => mt Json.canonical_eq_str_iff.1 (htext s)
      refine Rule.reports_of_error hjudge fun hnot => hnot ?_
      exact ⟨v, hacl, hset, .inr (.inr htext)⟩
  · have hunset := h.unset List.mem_cons_self hdeclared
    have hjudge := judge_noPublicAcl_of_unset (g := g) (hproperty ▸ hunset)
    refine (Rule.decides_of_judge hjudge (fun _ => rfl) fun hnot => ?_).reports
    refine absurd (fun hpublic => hdeclared ?_) hnot
    obtain ⟨acl, hacl, hset, -⟩ := hpublic
    exact ⟨acl, .here hacl hset⟩

theorem reports_versioningRequired
    (h : Adapters.Rewritten d.properties ["versioning", "versioningConfiguration"] "versioning"
      (Adapters.versioning d) (r.properties.get? "versioning")) :
    versioningRequired.Reports r g (EnablesVersioning d.properties) := by
  have hdecides := decides_versioningRequired r g
  refine (hdecides.iff.2 ?_).reports
  by_cases hdeclared : ∃ v, d.properties.FirstOf ["versioning", "versioningConfiguration"] v
  · obtain ⟨v, w, hv, hw, hget⟩ := h.resolve_right fun hkept => hkept.1 hdeclared
    rw [hget, Option.bind_some, Adapters.get?_of_versioning hw, Option.any_some, Json.isTrue,
      Adapters.versioningEnabled_iff]
    exact hv.exists_iff.symm
  · have hunset := h.unset List.mem_cons_self hdeclared
    rw [Json.bind_get?_of_unset hunset]
    refine iff_of_false (by simp) fun hon => ?_
    obtain ⟨v, hv, -⟩ := hon
    exact hdeclared ⟨v, hv⟩

theorem reports_accessLoggingRecommended
    (h : Adapters.Rewritten d.properties ["loggings", "logging"] "logging" (Adapters.logging d)
      (r.properties.get? "logging")) :
    accessLoggingRecommended.Reports r g (DeliversLogs d.properties) := by
  by_cases hdeclared : ∃ v, d.properties.FirstOf ["loggings", "logging"] v
  · obtain ⟨v, w, hv, hw, hget⟩ := h.resolve_right fun hkept => hkept.1 hdeclared
    obtain ⟨items, hitems, htargets⟩ := Adapters.exists_items_of_logging hw
    have hproperty : r.property? "logging.targets" = some (.arr items) := by
      rw [property?_logging, hget, Option.bind_some, hitems]
    have hdecides := decides_accessLoggingRecommended (g := g) (itemsAt_of_arr hproperty)
    have hdelivers : DeliversLogs d.properties ↔ ∃ entry ∈ v.oneOrMany, HasLogTarget entry :=
      hv.exists_iff
    exact (hdecides.iff.2 (htargets.trans hdelivers.symm)).reports
  · have hunset := h.unset (by simp) hdeclared
    have hproperty : r.property? "logging.targets" = none := by
      rw [property?_logging, Json.bind_get?_of_unset hunset]
    have hdecides :=
      decides_accessLoggingRecommended (g := g) (itemsAt_of_unset (.inl hproperty))
    refine (hdecides.iff.2 (iff_of_false (by simp) fun htarget => ?_)).reports
    obtain ⟨v, hv, -⟩ := htarget
    exact hdeclared ⟨v, hv⟩

end Rules

/-- Access list, versioning and access logs of a bucket that is adapted are judged as they are
declared, wherever the bucket stands in a graph. -/
theorem evaluate_bucket_settings {d : Declaration} {a : Adapted} (h : Adapters.bucket d = .ok a)
    {g : Graph} {s : Resource} (hs : s ∈ g.resources) (hkind : s.kind = a.resource.kind)
    (hproperties : s.properties = a.resource.properties) (p : Policy) :
    ∃ c, Rules.catalog p.bare = .ok c ∧
      (evaluate g c).Decides s.id RuleKey.noPublicAcl (¬HasPublicAcl d.properties) ∧
      (evaluate g c).Decides s.id RuleKey.versioningRequired (EnablesVersioning d.properties) ∧
      (evaluate g c).Decides s.id RuleKey.accessLoggingRecommended
        (DeliversLogs d.properties) := by
  obtain ⟨c, hc⟩ := Rules.exists_catalog_bare p
  obtain ⟨hkeyed, -⟩ := Rules.catalog_bare_spec hc
  have hbucket : s.kind = .bucket := by
    obtain ⟨fields, properties, rfl⟩ := Adapters.bucket_of_eq_ok h
    exact hkind
  have hrule {r : Rule} (hr : r ∈ Rules.builtin p) (happlies : r.applies .bucket = true) :
      r ∈ c.rulesFor s.kind := by
    rw [hbucket, Rules.mem_rulesFor_bare_iff hc]
    exact ⟨hr, happlies⟩
  obtain ⟨hacl, -, hversioning, hlogging⟩ := Adapters.rewritten_of_bucket h
  rw [← hproperties] at hacl hversioning hlogging
  refine ⟨c, hc, ?_, ?_, ?_⟩
  · exact Report.decides_evaluate hkeyed hs (hrule (by simp [Rules.builtin]) (by decide))
      (Rules.reports_noPublicAcl hacl)
  · exact Report.decides_evaluate hkeyed hs (hrule (by simp [Rules.builtin]) (by decide))
      (Rules.reports_versioningRequired hversioning)
  · exact Report.decides_evaluate hkeyed hs (hrule (by simp [Rules.builtin]) (by decide))
      (Rules.reports_accessLoggingRecommended hlogging)

/-- Settings of a bucket under their second spellings, with a list of targets for access logs. -/
def spelledSettings : Json :=
  .obj [("acl", .str "public-read"), ("versioning", .null),
    ("versioningConfiguration", .obj [("status", .str "ENABLED")]),
    ("logging", .arr [.obj [("targetPrefix", .str "logs/")],
      .obj [("targetBucket", .null), ("target_bucket", .str "audit")]])]

theorem evaluate_bucket_settings_spelled :
    let d := Rules.bucketDeclaration spelledSettings
    ∃ a g c, Adapters.bucket d = .ok a ∧ Graph.ofResources [a.resource] = .ok g ∧
      Rules.catalog Policy.strict.bare = .ok c ∧
      HasPublicAcl d.properties ∧
      (evaluate g c).Decides "b" RuleKey.noPublicAcl (¬HasPublicAcl d.properties) ∧
      EnablesVersioning d.properties ∧
      (evaluate g c).Decides "b" RuleKey.versioningRequired (EnablesVersioning d.properties) ∧
      DeliversLogs d.properties ∧
      (evaluate g c).Decides "b" RuleKey.accessLoggingRecommended
        (DeliversLogs d.properties) := by
  intro d
  obtain ⟨a, ha, hparts⟩ : ∃ a, Adapters.bucket d = .ok a ∧
      (a.resource.id, a.resource.relations.toList) = ("b", []) :=
    exists_eq_ok_of_map (by decide +kernel)
  obtain ⟨hid, hrelations⟩ := Prod.ext_iff.1 hparts
  dsimp only at hid hrelations
  obtain ⟨g, hg⟩ : ∃ g, Graph.ofResources [a.resource] = .ok g := by
    refine Graph.exists_ofResources_iff.2 ⟨by simp, ?_⟩
    simp [Graph.Closed, hrelations]
  have hresources := Graph.resources_of_ofResources hg
  have hmem : a.resource ∈ g.resources := by
    rw [hresources]
    exact List.mem_cons_self
  obtain ⟨c, hc, hacl, hversioning, hlogging⟩ :=
    evaluate_bucket_settings ha hmem rfl rfl Policy.strict
  rw [hid] at hacl hversioning hlogging
  have hpublic : HasPublicAcl d.properties :=
    ⟨.str "public-read", rfl, by decide, .inl rfl⟩
  have hon : EnablesVersioning d.properties := by
    refine ⟨_, .later (.inr rfl) (.here rfl (by decide)), .inr ⟨?_, "ENABLED", rfl, by decide⟩⟩
    intro b hb
    cases hb
  have hvisible : ¬Text.IsBlankText "audit" := by
    intro hblank
    exact absurd (hblank 'a' (by decide)) (by decide)
  have hlogs : DeliversLogs d.properties :=
    ⟨_, .later (.inl rfl) (.here rfl (by decide)), _, .tail _ (.head _), "audit",
      .later (.inr rfl) (.here rfl (by decide)), hvisible⟩
  exact ⟨a, g, c, ha, hg, hc, hpublic, hacl, hon, hversioning, hlogs, hlogging⟩

end StackAudit
