import StackAudit.Proofs.Declaration
import StackAudit.Proofs.Policy
import StackAudit.Proofs.Resolution

/-!
# Resources of unknown kinds

A document whose type no adapter knows can be kept, as a resource of a kind that is named after the
type. The rules apply to kinds by their names, so such a resource is left alone unless its type is
spelled like one of the kinds that the rules are about.
-/
namespace StackAudit

theorem Rule.applies_eq_false_iff {r : Rule} {name : String} :
    r.applies ⟨name⟩ = false ↔ ∀ kind ∈ r.appliesTo, kind.name ≠ name := by
  rw [Rule.applies, List.contains_eq_any_beq, List.any_eq_false]
  refine forall₂_congr fun kind _ => ?_
  rw [beq_iff_eq, ne_eq, not_iff_not]
  constructor
  · intro h
    rw [← h]
  · intro h
    rw [← h]

namespace Rules

/-- The kinds that built-in rules are about. -/
def judgedKinds : List ResourceKind := [.bucket, .workload, .container]

theorem appliesTo_subset_judgedKinds {p : Policy} {r : Rule} (hr : r ∈ builtin p) :
    r.appliesTo ⊆ judgedKinds := by
  have hkinds : ∀ kinds ∈ (builtin p).map Rule.appliesTo, kinds ⊆ judgedKinds := by
    -- The kinds do not depend on the required labels, as the keys do not.
    change ∀ kinds ∈ (builtin .strict).map Rule.appliesTo, kinds ⊆ judgedKinds
    decide
  exact hkinds _ (List.mem_map_of_mem hr)

/-- A catalog has no rule for a kind when no enabled rule is about it. -/
theorem rulesFor_eq_nil_iff {p : Policy} {c : Catalog} (h : catalog p = .ok c)
    {kind : ResourceKind} :
    c.rulesFor kind = [] ↔
      ∀ r ∈ builtin p, p.enables r.key = true → r.applies kind = false := by
  have hperm := (c.rulesFor_perm kind).trans ((catalog_spec h).2.filter _)
  rw [← List.perm_nil, hperm.congr_left, List.perm_nil, List.filter_eq_nil_iff,
    List.forall_mem_map]
  simp only [settled_applies, List.mem_filter, and_imp, Bool.not_eq_true]

end Rules

/-- A resource has no verdicts when the catalog has no rule for its kind. -/
theorem forall_resourceId_ne_iff {g : Graph} {s : Resource} (hs : s ∈ g.resources) (c : Catalog) :
    (∀ v ∈ (evaluate g c).verdicts, v.resourceId ≠ s.id) ↔ c.rulesFor s.kind = [] := by
  have hnone : (∀ v ∈ (evaluate g c).verdicts, v.resourceId ≠ s.id) ↔
      (evaluate g c).verdicts.filter (·.resourceId = s.id) = [] := by
    simp only [List.filter_eq_nil_iff, decide_eq_true_eq, ne_eq]
  rw [hnone, filter_verdicts_evaluate hs, verdictsOn, List.map_eq_nil_iff]

namespace Graph

open Assembly

variable {docs : List RawDocument} {g : Graph}

/-- A declaration of an unknown type is kept with all its properties, as a resource that refers to
nothing. -/
theorem exists_resource_of_get?_eq_none (hg : ofDocuments docs .builtin .passthrough = .ok g)
    {raw : RawDocument} (hraw : raw ∈ docs) {d : Declaration}
    (hd : Declaration.ofDocument raw = .ok (some d))
    (hunknown : AdapterRegistry.builtin.get? d.typeToken = none) :
    { d.toResource ⟨d.typeToken⟩ d.canonicalProperties with
      location := some ⟨d.doc.source, some d.doc.index⟩ } ∈ g.resources := by
  obtain ⟨f, hf, -, hresources⟩ := exists_found_of_ofDocuments hg
  obtain ⟨a, ha, hmem⟩ := Found.exists_mem_adapted hf hraw hd
  obtain ⟨-, rfl⟩ := (adapt_of_get?_eq_none hunknown).1 ha
  rw [hresources]
  exact List.mem_map_of_mem hmem

theorem kind_of_get?_eq_none (hg : ofDocuments docs .builtin .passthrough = .ok g) {s : Resource}
    (hs : s ∈ g.resources) (hunknown : AdapterRegistry.builtin.get? s.typeToken = none) :
    s.kind = ⟨s.typeToken⟩ := by
  obtain ⟨f, hf, -, hresources⟩ := exists_found_of_ofDocuments hg
  rw [hresources] at hs
  obtain ⟨e, he, rfl⟩ := List.mem_map.1 hs
  obtain ⟨raw, -, d, -, ha, -⟩ := (Found.mem_adapted_iff hf).1 he
  have htoken : (f.resolved e).typeToken = d.typeToken := typeToken_of_adapt_builtin ha
  rw [htoken] at hunknown ⊢
  obtain ⟨-, ha⟩ := (adapt_of_get?_eq_none hunknown).1 ha
  change e.2.resource.kind = _
  rw [ha]
  rfl

/-- Documents of unknown types are kept, and no rule judges them, whatever the policy: except where
the type is spelled like a kind that an enabled rule is about. -/
theorem ofDocuments_passthrough_unjudged {p : Policy} {c : Catalog}
    (hg : ofDocuments docs .builtin .passthrough = .ok g) (hc : Rules.catalog p = .ok c) :
    (∀ raw ∈ docs, ∀ d, Declaration.ofDocument raw = .ok (some d) →
      AdapterRegistry.builtin.get? d.typeToken = none →
      { d.toResource ⟨d.typeToken⟩ d.canonicalProperties with
        location := some ⟨d.doc.source, some d.doc.index⟩ } ∈ g.resources) ∧
    ∀ s ∈ g.resources, AdapterRegistry.builtin.get? s.typeToken = none →
      ((∀ v ∈ (evaluate g c).verdicts, v.resourceId ≠ s.id) ↔
        ∀ r ∈ Rules.builtin p, p.enables r.key = true →
          ∀ kind ∈ r.appliesTo, kind.name ≠ s.typeToken) ∧
      ((∀ kind ∈ Rules.judgedKinds, kind.name ≠ s.typeToken) →
        ∀ v ∈ (evaluate g c).verdicts, v.resourceId ≠ s.id) := by
  refine ⟨fun raw hraw d => exists_resource_of_get?_eq_none hg hraw, fun s hs hunknown => ?_⟩
  have hiff : (∀ v ∈ (evaluate g c).verdicts, v.resourceId ≠ s.id) ↔
      ∀ r ∈ Rules.builtin p, p.enables r.key = true →
        ∀ kind ∈ r.appliesTo, kind.name ≠ s.typeToken := by
    rw [forall_resourceId_ne_iff hs, kind_of_get?_eq_none hg hs hunknown,
      Rules.rulesFor_eq_nil_iff hc]
    simp only [Rule.applies_eq_false_iff]
  refine ⟨hiff, fun hkinds => hiff.2 fun r hr _ kind hkind => ?_⟩
  exact hkinds kind (Rules.appliesTo_subset_judgedKinds hr hkind)

def queueDocument : RawDocument where
  doc := ⟨.here, 1, none⟩
  body := .obj [("type", .str "aws:sqs/queue:Queue"), ("name", .str "jobs"),
    ("properties", .obj [("fifo", .bool true)])]

/-- A queue, of which no rule knows, beside a bucket. -/
def queueDocuments : List RawDocument :=
  [{ doc := ⟨.here, 0, none⟩
     body := .obj [("type", .str "aws:s3/bucket:Bucket"), ("name", .str "logs"),
       ("properties", .obj [])] },
   queueDocument]

theorem ofDocuments_passthrough_unjudged_queue :
    ∃ g c, ofDocuments queueDocuments .builtin .passthrough = .ok g ∧
      Rules.catalog .strict = .ok c ∧
      (∃ s ∈ g.resources, s.id = "jobs" ∧ s.typeToken = "aws:sqs/queue:Queue") ∧
      ∀ v ∈ (evaluate g c).verdicts, v.resourceId ≠ "jobs" := by
  obtain ⟨g, hg, -⟩ : ∃ g, ofDocuments queueDocuments .builtin .passthrough = .ok g ∧ g.size = 2 :=
    exists_eq_ok_of_map (by decide +kernel)
  obtain ⟨c, hc⟩ : ∃ c, Rules.catalog .strict = .ok c := Rules.exists_catalog_bare .strict
  obtain ⟨hkept, hunjudged⟩ := ofDocuments_passthrough_unjudged hg hc
  have hdeclared : Declaration.ofDocument queueDocument = .ok (some
      (.typed ⟨.here, 1, some "jobs"⟩ [("type", .str "aws:sqs/queue:Queue"), ("name", .str "jobs"),
        ("properties", .obj [("fifo", .bool true)])] "aws:sqs/queue:Queue" "jobs")) :=
    toOption_eq_some_iff.1 (by decide +kernel)
  have hunknown : AdapterRegistry.builtin.get? "aws:sqs/queue:Queue" = none :=
    AdapterRegistry.get?_builtin_eq_none_iff.2 (by decide)
  have hs := hkept _ (List.mem_cons_of_mem _ List.mem_cons_self) _ hdeclared hunknown
  exact ⟨g, c, hg, hc, ⟨_, hs, rfl, rfl⟩, (hunjudged _ hs hunknown).2 (by decide)⟩

/-- A document whose type is the name of a kind. -/
def kindNamedDocument : RawDocument where
  doc := ⟨.here, 0, none⟩
  body := .obj [("type", .str "Container"), ("name", .str "x")]

/-- The container rules judge a document that no adapter has read. -/
theorem ofDocuments_passthrough_judges_container :
    AdapterRegistry.builtin.get? "Container" = none ∧
      ∃ g c, ofDocuments [kindNamedDocument] .builtin .passthrough = .ok g ∧
        Rules.catalog .strict = .ok c ∧
        ∃ s ∈ g.resources, s.typeToken = "Container" ∧
          ∃ v ∈ (evaluate g c).verdicts, v.resourceId = s.id := by
  have hunknown : AdapterRegistry.builtin.get? "Container" = none :=
    AdapterRegistry.get?_builtin_eq_none_iff.2 (by decide)
  obtain ⟨g, hg, -⟩ : ∃ g,
      ofDocuments [kindNamedDocument] .builtin .passthrough = .ok g ∧ g.size = 1 :=
    exists_eq_ok_of_map (by decide +kernel)
  obtain ⟨c, hc⟩ : ∃ c, Rules.catalog .strict = .ok c := Rules.exists_catalog_bare .strict
  have hdeclared : Declaration.ofDocument kindNamedDocument = .ok (some
      (.typed ⟨.here, 0, some "x"⟩ [("type", .str "Container"), ("name", .str "x")]
        "Container" "x")) :=
    toOption_eq_some_iff.1 (by decide +kernel)
  have hs := exists_resource_of_get?_eq_none hg List.mem_cons_self hdeclared hunknown
  refine ⟨hunknown, g, c, hg, hc, _, hs, rfl, ?_⟩
  by_contra hnone
  simp only [not_exists, not_and] at hnone
  have hempty := (Rules.rulesFor_eq_nil_iff hc).1 ((forall_resourceId_ne_iff hs c).1 hnone)
  have hrule : Rules.noPrivilegedContainers ∈ Rules.builtin .strict := by simp [Rules.builtin]
  exact Bool.false_ne_true ((hempty _ hrule rfl).symm.trans (by decide))

end Graph

end StackAudit
