import StackAudit.Adapter

/-!
# Buckets

Declarations of buckets. Encryption, versioning and logging are written in several ways, in two
spellings of their keys, and as one entry or as a list; the resource holds them in one form.
-/
namespace StackAudit.Adapters

open Json (firstOf? oneOrMany)

def bucketTokens : List String := ["aws:s3/bucket:Bucket", "aws:s3/bucketV2:BucketV2"]

/-- One encryption rule, if it says what to apply by default. -/
def encryptionRule (d : Declaration) (rule : Json) : Except Malformed (Option Json) :=
  match rule with
  | .obj fields =>
    match firstOf? fields
      ["applyServerSideEncryptionByDefault", "apply_server_side_encryption_by_default"] with
    | none => .ok none
    | some (.obj byDefault) => .ok (some (Json.ofFields
        [("algorithm", firstOf? byDefault ["sseAlgorithm", "sse_algorithm"]),
         ("kmsMasterKeyId", firstOf? byDefault ["kmsMasterKeyId", "kms_master_key_id"]),
         ("bucketKeyEnabled", firstOf? fields ["bucketKeyEnabled", "bucket_key_enabled"])]))
    | some _ => .error (d.misshaped
        "serverSideEncryptionConfiguration.rule.applyServerSideEncryptionByDefault" "a mapping")
  | _ => .error (d.misshaped "serverSideEncryptionConfiguration.rule" "a mapping")

/-- The encryption of a bucket, from its configuration. -/
def encryption (d : Declaration) (configuration : Json) : Except Malformed Json :=
  match configuration with
  | .obj fields => do
    let rules := ((firstOf? fields ["rules", "rule"]).map oneOrMany).getD []
    let kept ← rules.mapM (encryptionRule d)
    return .obj [("rules", .arr (kept.filterMap id))]
  | _ => .error (d.misshaped "serverSideEncryptionConfiguration" "a mapping")

/-- Whether versioning is on: by a truth value, or else by a status. -/
def versioningEnabled (v : Json) : Bool :=
  match v.get? "enabled", v.get? "status" with
  | some (.bool b), _ => b
  | _, some (.str status) => Text.eqIgnoringAsciiCase status "enabled"
  | _, _ => false

/-- The versioning of a bucket, with `enabled` as a truth value. -/
def versioning (d : Declaration) (v : Json) : Except Malformed Json :=
  match v with
  | .obj _ => .ok (v.canonical.insert "enabled" (.bool (versioningEnabled v)))
  | _ => .error (d.misshaped "versioning" "a mapping")

/-- One target of access logs. -/
def loggingTarget (d : Declaration) (entry : Json) : Except Malformed Json :=
  match entry with
  | .obj fields => .ok (Json.ofFields
      [("targetBucket", firstOf? fields ["targetBucket", "target_bucket"]),
       ("targetPrefix", firstOf? fields ["targetPrefix", "target_prefix"])])
  | _ => .error (d.misshaped "loggings" "a mapping or a sequence of mappings")

/-- The access logs of a bucket. -/
def logging (d : Declaration) (v : Json) : Except Malformed Json := do
  return .obj [("targets", .arr (← (oneOrMany v).mapM (loggingTarget d)))]

/-- Adds a name unless it is blank, the id itself, or known already. -/
def addAlias (id : String) (known : List String) (name : String) : List String :=
  let name := Text.trim name
  if name = "" ∨ name = id ∨ known.contains name then known else known ++ [name]

/-- The further names of a bucket: the declared one, the id that the provider gave, and the names in
its outputs. -/
def bucketAliases (d : Declaration) (fields : List (String × Json)) : List String :=
  let declared := (firstOf? fields ["bucket", "bucketName"]).bind Json.asStr?
  let exported := ["bucket", "id"].filterMap fun k => (d.outputs.get? k).bind Json.asStr?
  (declared.toList ++ d.physicalId.toList ++ exported).foldl (addAlias d.id) []

/-- Replaces a property by its normal form, if one of its spellings is there. -/
def rewriteProperty (fields : List (String × Json)) (ks : List String) (name : String)
    (normal : Json → Except Malformed Json) (properties : KeyMap Json) :
    Except Malformed (KeyMap Json) :=
  match firstOf? fields ks with
  | none => .ok properties
  | some v => (normal v).map (properties.insert name)

def bucket : Adapter := fun d => do
  let fields ← d.fields
  let properties ← rewriteProperty fields ["acl"] "acl" (fun v => .ok v.canonical)
    d.canonicalProperties
  let properties ← rewriteProperty fields
    ["serverSideEncryptionConfiguration", "server_side_encryption_configuration"]
    "serverSideEncryption" (encryption d) properties
  let properties ← rewriteProperty fields ["versioning", "versioningConfiguration"]
    "versioning" (versioning d) properties
  let properties ← rewriteProperty fields ["loggings", "logging"] "logging" (logging d) properties
  return { resource := d.toResource .bucket properties, aliases := bucketAliases d fields }

end StackAudit.Adapters
