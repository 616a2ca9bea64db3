import StackAudit.Proofs.Declaration
import StackAudit.Proofs.Replacement

/-!
# Workloads in two dialects

A workload is declared by an API version and a kind, with its metadata and its specification beside
them, or under a type token of the deployment engine, with both among its properties. Identity and
properties are read along different ways, but they come to the same: a workload may be written in
either dialect, and only its type token tells which one it was.
-/
namespace StackAudit

/-- Two objects have the same fields, in whatever order. -/
def Json.SameFields (a b : List (String × Json)) : Prop := ∀ k, a.lookup k = b.lookup k

/-- The kinds of workloads. -/
inductive WorkloadKind where
  | deployment
  | statefulSet
  | daemonSet
  | replicaSet
  | job
  | cronJob
  | pod

namespace WorkloadKind

def kind : WorkloadKind → String
  | .deployment => "Deployment"
  | .statefulSet => "StatefulSet"
  | .daemonSet => "DaemonSet"
  | .replicaSet => "ReplicaSet"
  | .job => "Job"
  | .cronJob => "CronJob"
  | .pod => "Pod"

def apiVersion : WorkloadKind → String
  | .job | .cronJob => "batch/v1"
  | .pod => "v1"
  | _ => "apps/v1"

/-- The API version with its group, also where the group is the unnamed core. -/
def groupVersion : WorkloadKind → String
  | .pod => "core/v1"
  | w => w.apiVersion

def plainToken (w : WorkloadKind) : String := w.apiVersion ++ "/" ++ w.kind

def engineToken (w : WorkloadKind) : String := "kubernetes:" ++ w.groupVersion ++ ":" ++ w.kind

/-- The fields of a plain document. -/
def plainFields (w : WorkloadKind) (metadata : List (String × Json)) (spec : Json) :
    List (String × Json) :=
  [("apiVersion", .str w.apiVersion), ("kind", .str w.kind), ("metadata", .obj metadata),
   ("spec", spec)]

/-- The fields of a document of the deployment engine. -/
def engineFields (w : WorkloadKind) (name : String) (properties : List (String × Json)) :
    List (String × Json) :=
  [("type", .str w.engineToken), ("name", .str name), ("properties", .obj properties)]

theorem trimmed?_apiVersion (w : WorkloadKind) :
    Text.trimmed? w.apiVersion = some w.apiVersion := by
  cases w <;> decide

theorem trimmed?_kind (w : WorkloadKind) : Text.trimmed? w.kind = some w.kind := by
  cases w <;> decide

theorem trimmed?_engineToken (w : WorkloadKind) :
    Text.trimmed? w.engineToken = some w.engineToken := by
  cases w <;> decide

theorem isInternal_engineToken (w : WorkloadKind) :
    Declaration.isInternal w.engineToken = false := by
  cases w <;> decide

theorem plainToken_mem (w : WorkloadKind) :
    w.plainToken ∈ Adapters.workloadTokens.map Prod.fst := by
  cases w <;> decide

theorem engineToken_mem (w : WorkloadKind) :
    w.engineToken ∈ Adapters.workloadTokens.map Prod.fst := by
  cases w <;> decide

/-- Both tokens of a kind stand for one place of the pods. -/
theorem podPath_engineToken (w : WorkloadKind) :
    Adapters.podPath w.engineToken = Adapters.podPath w.plainToken := by
  cases w <;> rfl

/-- The pods of every kind are found below the specification. -/
theorem exists_pieces_podPath (w : WorkloadKind) :
    ∃ rest, Text.pieces '.' (Adapters.podPath w.plainToken) = "spec" :: rest := by
  cases w
  case cronJob => exact ⟨["jobTemplate", "spec", "template", "spec"], by decide⟩
  case pod => exact ⟨[], by decide⟩
  all_goals exact ⟨["template", "spec"], by decide⟩

end WorkloadKind

namespace Adapters

/-- The place of the pods is looked up in the specification alone. -/
theorem descend_congr {fields fields' : List (String × Json)} {path : String}
    (hpath : ∃ rest, Text.pieces '.' path = "spec" :: rest)
    (hspec : fields'.lookup "spec" = fields.lookup "spec") :
    descend (.obj fields') path = descend (.obj fields) path := by
  obtain ⟨rest, hrest⟩ := hpath
  have hget : (Json.obj fields').get? "spec" = (Json.obj fields).get? "spec" := hspec
  rw [descend, descend, hrest, List.foldlM_cons, List.foldlM_cons, hget]

theorem podSpec_congr {d d' : Declaration} (hdoc : d'.doc = d.doc)
    (hpath : podPath d'.typeToken = podPath d.typeToken)
    (hdescend : descend d'.properties (podPath d.typeToken) =
      descend d.properties (podPath d.typeToken)) : podSpec d' = podSpec d := by
  have hmisshaped : d'.misshaped = d.misshaped := by
    funext path expected
    rw [Declaration.misshaped, Declaration.misshaped, hdoc]
  rw [podSpec, podSpec, hpath, hdescend, hmisshaped]

theorem workload_eq {d : Declaration} {fields metadata : List (String × Json)}
    (hproperties : d.properties = .obj fields)
    (hmetadata : fields.lookup "metadata" = some (.obj metadata)) :
    workload d = (podSpec d).map fun spec =>
      { resource := d.toResource .workload
          (Json.canonicalFields [("metadata", .obj metadata), ("spec", spec)]) } := by
  have hfields : d.fields = .ok fields := fields_eq_ok_iff.2 hproperties
  rw [workload, hfields, ok_bind, hmetadata]
  rfl

/-- Workloads with the same metadata and the same specification are adapted alike. -/
theorem workload_retype {d d' : Declaration} {fields fields' metadata : List (String × Json)}
    (hproperties : d.properties = .obj fields) (hproperties' : d'.properties = .obj fields')
    (hmetadata : fields.lookup "metadata" = some (.obj metadata))
    (hmetadata' : fields'.lookup "metadata" = some (.obj metadata))
    (hpod : podSpec d' = podSpec d) (hid : d'.id = d.id) :
    workload d' = (workload d).map (.retype d.id d'.typeToken) := by
  rw [workload_eq hproperties hmetadata, workload_eq hproperties' hmetadata', hpod]
  cases podSpec d with
  | error e => rfl
  | ok spec =>
    simp [Except.map, Adapted.retype, Resource.retype, Declaration.toResource, hid]

end Adapters

namespace Declaration

theorem textOf?_of_lookup {fields : List (String × Json)} {k s : String}
    (h : fields.lookup k = some (.str s)) : textOf? fields k = Text.trimmed? s := by
  rw [textOf?, h, Option.bind_some, Json.nonBlank?, Json.asStr?, Option.bind_some]

theorem textOf?_of_lookup_none {fields : List (String × Json)} {k : String}
    (h : fields.lookup k = none) : textOf? fields k = none := by
  rw [textOf?, h]
  rfl

variable {w : WorkloadKind} {metadata : List (String × Json)} {name : String}

/-- What a plain document of a workload declares. -/
theorem ofDocument_plain {spec : Json} {plain : List (String × Json)}
    (hplain : Json.SameFields plain (w.plainFields metadata spec))
    (hname : metadata.lookup "name" = some (.str name)) (hblank : Text.trim name ≠ "")
    (doc : DocumentRef) :
    ofDocument ⟨doc, .obj plain⟩ = .ok (some (kinded
      { doc with name := some (Text.trim name) } plain w.apiVersion w.kind (Text.trim name))) := by
  have hversion : textOf? plain "apiVersion" = some w.apiVersion :=
    (textOf?_of_lookup (hplain "apiVersion")).trans w.trimmed?_apiVersion
  have hkind : textOf? plain "kind" = some w.kind :=
    (textOf?_of_lookup (hplain "kind")).trans w.trimmed?_kind
  have hid : metadataName? plain = some (Text.trim name) := by
    have hget : (Json.obj metadata).get? "name" = some (.str name) := hname
    have hmetadata : plain.lookup "metadata" = some (.obj metadata) := hplain "metadata"
    rw [metadataName?, hmetadata, Option.bind_some, hget, Option.bind_some, Json.nonBlank?,
      Json.asStr?, Option.bind_some, Text.trimmed?, if_neg hblank]
  have hdoc : refOf doc plain = { doc with name := some (Text.trim name) } := by
    rw [refOf, displayName?, textOf?_of_lookup_none (hplain "name"), hid]
    rfl
  rw [ofDocument_of_untyped (textOf?_of_lookup_none (hplain "type")), hdoc,
    ofKind_of_named hversion hkind hid]
  rfl

/-- What a document of the deployment engine declares. -/
theorem ofDocument_engine {properties managed : List (String × Json)}
    (hmanaged : Json.SameFields managed (w.engineFields name properties))
    (hblank : Text.trim name ≠ "") (doc : DocumentRef) :
    ofDocument ⟨doc, .obj managed⟩ = .ok (some (typed
      { doc with name := some (Text.trim name) } managed w.engineToken (Text.trim name))) := by
  have htype : textOf? managed "type" = some w.engineToken :=
    (textOf?_of_lookup (hmanaged "type")).trans w.trimmed?_engineToken
  have hname : textOf? managed "name" = some (Text.trim name) :=
    (textOf?_of_lookup (hmanaged "name")).trans (if_neg hblank)
  have hdoc : refOf doc managed = { doc with name := some (Text.trim name) } := by
    rw [refOf, displayName?, hname]
    rfl
  have hid : tokenId? managed = some (Text.trim name) := by
    rw [tokenId?, hname]
    rfl
  rw [ofDocument_of_typed htype, w.isInternal_engineToken, hdoc, ofToken_eq, hid]
  rfl

end Declaration

/-- The adapters make the same of both declarations but for the type token. -/
theorem Assembly.adapt_engine {w : WorkloadKind}
    {metadata properties plain managed : List (String × Json)} {spec : Json} {name : String}
    (hplain : Json.SameFields plain (w.plainFields metadata spec))
    (hproperties : Json.SameFields properties [("metadata", .obj metadata), ("spec", spec)])
    (hmanaged : Json.SameFields managed (w.engineFields name properties))
    (doc : DocumentRef) (id : String) (unknown : UnknownKinds) :
    adapt .builtin unknown (.typed doc managed w.engineToken id) =
      (adapt .builtin unknown (.kinded doc plain w.apiVersion w.kind id)).map
        (.retype id w.engineToken) := by
  have hfirst : Declaration.firstObject managed ["properties", "inputs", "outputs"] =
      .obj properties := by
    have hlookup : managed.lookup "properties" = some (.obj properties) := hmanaged "properties"
    simp only [Declaration.firstObject, List.findSome?_cons, hlookup, Option.getD_some]
  -- What is left of a plain document has its metadata and its specification as they were.
  have hrest (k : String) (hk : k ≠ "apiVersion" ∧ k ≠ "kind") :
      (plain.filter fun e => e.1 ≠ "apiVersion" ∧ e.1 ≠ "kind").lookup k =
        (w.plainFields metadata spec).lookup k := by
    rw [KeyMap.lookup_filter (fun k => k ≠ "apiVersion" ∧ k ≠ "kind"), if_pos (decide_eq_true hk),
      hplain]
  have hmetadata := hrest "metadata" (by decide)
  have hspec := (hproperties "spec").trans (hrest "spec" (by decide)).symm
  rw [adapt_builtin_of_mem_workloadTokens w.engineToken_mem,
    adapt_builtin_of_mem_workloadTokens w.plainToken_mem]
  refine Adapters.workload_retype rfl hfirst hmetadata (hproperties "metadata") ?_ rfl
  refine Adapters.podSpec_congr rfl w.podPath_engineToken ?_
  change Adapters.descend (Declaration.firstObject managed _) _ = _
  rw [hfirst]
  exact Adapters.descend_congr w.exists_pieces_podPath hspec

namespace Graph

open Assembly

/-- A workload may be written in either dialect, in whatever list of documents. Both lists fail with
the same error, or they make graphs that differ only in the type token of this workload; and then
every policy gives them the same report. -/
theorem ofDocuments_engine_eq (w : WorkloadKind)
    {metadata properties plain managed : List (String × Json)} {spec : Json} {name : String}
    (hname : metadata.lookup "name" = some (.str name)) (hblank : Text.trim name ≠ "")
    (hplain : Json.SameFields plain (w.plainFields metadata spec))
    (hproperties : Json.SameFields properties [("metadata", .obj metadata), ("spec", spec)])
    (hmanaged : Json.SameFields managed (w.engineFields name properties))
    (doc : DocumentRef) (before after : List RawDocument) (unknown : UnknownKinds) :
    ofDocuments (before ++ ⟨doc, .obj managed⟩ :: after) .builtin unknown =
      (ofDocuments (before ++ ⟨doc, .obj plain⟩ :: after) .builtin unknown).map
        (retype (Text.trim name) w.engineToken) ∧
    ∀ g, ofDocuments (before ++ ⟨doc, .obj plain⟩ :: after) .builtin unknown = .ok g →
      (∃ r ∈ g.resources, r.id = Text.trim name ∧ r.typeToken = w.plainToken ∧
        r.location = some ⟨doc.source, some doc.index⟩) ∧
      ∀ p c, Rules.catalog p = .ok c →
        evaluate (g.retype (Text.trim name) w.engineToken) c = evaluate g c := by
  have hd := Declaration.ofDocument_plain hplain hname hblank doc
  have hd' := Declaration.ofDocument_engine hmanaged hblank doc
  have hadapt := adapt_engine hplain hproperties hmanaged
    { doc with name := some (Text.trim name) } (Text.trim name) unknown
  refine ⟨ofDocuments_replace hd hd' rfl rfl hadapt before after, fun g hg => ⟨?_, ?_⟩⟩
  · exact exists_resource_of_declared hg (List.mem_append_right _ List.mem_cons_self) hd
  · intro p c hc
    exact evaluate_retype (Rules.typeFree_catalog hc) g _ _

def nightlyMetadata : List (String × Json) :=
  [("name", .str " nightly"), ("labels", .obj [("owner", .str "data")])]

/-- The pods lie one level deeper than those of other workloads. -/
def nightlySpec : Json :=
  .obj [("jobTemplate", .obj [("spec", .obj [("template", .obj [("spec", .obj
    [("containers", .arr [.obj [("name", .str "dump"), ("image", .str "dump:latest")]])])])])])]

def nightlyBucket : RawDocument where
  doc := ⟨.here, 0, none⟩
  body := .obj [("type", .str "aws:s3/bucket:Bucket"), ("name", .str "dumps"),
    ("properties", .obj [])]

def plainNightly : RawDocument where
  doc := ⟨.here, 1, none⟩
  body := .obj (WorkloadKind.cronJob.plainFields nightlyMetadata nightlySpec)

def engineNightly : RawDocument where
  doc := ⟨.here, 1, none⟩
  body := .obj (WorkloadKind.cronJob.engineFields " nightly"
    [("metadata", .obj nightlyMetadata), ("spec", nightlySpec)])

theorem ofDocuments_engine_eq_cronJob :
    ∃ g, ofDocuments [nightlyBucket, plainNightly] .builtin .reject = .ok g ∧
      ofDocuments [nightlyBucket, engineNightly] .builtin .reject =
        .ok (g.retype "nightly" "kubernetes:batch/v1:CronJob") ∧
      g.resources.map (fun s => (s.id, s.typeToken)) =
        [("dumps", "aws:s3/bucket:Bucket"), ("nightly", "batch/v1/CronJob")] ∧
      ∀ p c, Rules.catalog p = .ok c →
        evaluate (g.retype "nightly" "kubernetes:batch/v1:CronJob") c = evaluate g c := by
  have htrim : Text.trim " nightly" = "nightly" := by decide +kernel
  have hplain : Json.SameFields (WorkloadKind.cronJob.plainFields nightlyMetadata nightlySpec)
      (WorkloadKind.cronJob.plainFields nightlyMetadata nightlySpec) := fun _ => rfl
  obtain ⟨hengine, hof⟩ := ofDocuments_engine_eq .cronJob rfl (by decide +kernel) hplain
    (fun _ => rfl) (fun _ => rfl) ⟨.here, 1, none⟩ [nightlyBucket] [] .reject
  rw [htrim] at hengine hof
  obtain ⟨g, hg, htokens⟩ : ∃ g,
      ofDocuments [nightlyBucket, plainNightly] .builtin .reject = .ok g ∧
        g.resources.map (fun s => (s.id, s.typeToken)) =
          [("dumps", "aws:s3/bucket:Bucket"), ("nightly", "batch/v1/CronJob")] :=
    exists_eq_ok_of_map (by decide +kernel)
  refine ⟨g, hg, ?_, htokens, (hof g hg).2⟩
  refine hengine.trans ?_
  rw [List.singleton_append, ← plainNightly, hg]
  rfl

end Graph

end StackAudit
