import StackAudit.RuleKey

/-!
# Guidance

For each built-in rule, what it detects, why that matters, and how to mend it.
-/
namespace StackAudit

/-- What there is to say about a rule. -/
structure Guidance where
  /-- The title of the rule. -/
  title : String
  /-- The remedy in one sentence. -/
  hint : String
  /-- What the rule detects, and why it matters. -/
  description : String
  /-- How to mend a violation. -/
  remediation : String
  /-- A declaration that breaks the rule. -/
  before : String
  /-- The declaration after the remedy. -/
  after : String

namespace Guidance

/-- Lines with line feeds between them. -/
def lines (l : List String) : String := "\n".intercalate l

/-- Buckets open to everyone by a canned access list. -/
def noPublicAcl : Guidance where
  title := "No Public Bucket ACL"
  hint := "Set the bucket ACL to `private` and grant access through scoped policies."
  description := lines [
    "Detects object storage buckets whose canned ACL grants access to everyone.",
    "",
    "The `public-read` and `public-read-write` ACLs expose every object in the bucket",
    "to anonymous callers. `public-read-write` additionally lets anyone upload or",
    "overwrite objects, which turns the bucket into free hosting for attackers."]
  remediation := lines [
    "Use the `private` ACL (the default) and grant access explicitly:",
    "- Use bucket policies scoped to specific principals",
    "- Serve public content through a CDN with origin access control",
    "- Pair the bucket with a public access block that ignores public ACLs"]
  before := lines [
    "type: aws:s3/bucket:Bucket",
    "name: assets",
    "properties:",
    "  acl: public-read"]
  after := lines [
    "type: aws:s3/bucket:Bucket",
    "name: assets",
    "properties:",
    "  acl: private"]

/-- Buckets without default encryption. -/
def encryptionRequired : Guidance where
  title := "Server-Side Encryption Required"
  hint := "Add a server-side encryption rule with a default algorithm (AES256 or aws:kms)."
  description := lines [
    "Detects buckets without a server-side encryption-by-default rule.",
    "",
    "Without default encryption, objects written by clients that do not request",
    "encryption are stored in plaintext. A rule only counts when it names a",
    "non-empty algorithm."]
  remediation := lines [
    "Declare `serverSideEncryptionConfiguration` with at least one rule whose",
    "`applyServerSideEncryptionByDefault.sseAlgorithm` is `AES256` or `aws:kms`."]
  before := lines [
    "properties:",
    "  acl: private"]
  after := lines [
    "properties:",
    "  serverSideEncryptionConfiguration:",
    "    rule:",
    "      applyServerSideEncryptionByDefault:",
    "        sseAlgorithm: AES256"]

/-- Buckets without versions. -/
def versioningRequired : Guidance where
  title := "Bucket Versioning Required"
  hint := "Enable bucket versioning (`versioning.enabled: true`)."
  description := lines [
    "Detects buckets where object versioning is not explicitly enabled.",
    "",
    "Versioning keeps prior object versions so accidental deletes, overwrites and",
    "ransomware-style encryption of objects can be rolled back."]
  remediation := lines [
    "Set `versioning.enabled` to `true`. Combine with lifecycle rules to expire",
    "noncurrent versions if storage cost is a concern."]
  before := lines [
    "properties:",
    "  versioning:",
    "    enabled: false"]
  after := lines [
    "properties:",
    "  versioning:",
    "    enabled: true"]

/-- Buckets whose accesses are not logged. -/
def accessLoggingRecommended : Guidance where
  title := "Bucket Access Logging Recommended"
  hint := "Configure an access log target bucket for this bucket."
  description := lines [
    "Detects buckets with no server access logging target.",
    "",
    "Access logs are the primary record of who read or changed objects and are",
    "needed for incident response and audits."]
  remediation := lines [
    "Add a `loggings` entry (or `logging` block) with a `targetBucket` and an",
    "optional `targetPrefix`. The target bucket should not log to itself."]
  before := lines [
    "properties:",
    "  acl: private"]
  after := lines [
    "properties:",
    "  loggings:",
    "    - targetBucket: logs-bucket",
    "      targetPrefix: s3-logs/"]

/-- Buckets without a complete block of public access. -/
def publicAccessBlockRequired : Guidance where
  title := "Public Access Block Required"
  hint := "Attach a public access block with all four block flags set to true."
  description := lines [
    "Detects buckets that are not covered by a public access block with every flag on.",
    "",
    "A public access block overrides bucket-level ACLs and policies. It only fully",
    "protects the bucket when `blockPublicAcls`, `blockPublicPolicy`,",
    "`ignorePublicAcls` and `restrictPublicBuckets` are all `true`. A missing block",
    "and a misconfigured block are reported under this same rule."]
  remediation := lines [
    "Declare a public access block resource in the same stack whose `bucket`",
    "references this bucket and set all four flags to `true`."]
  before := lines [
    "type: aws:s3/bucketPublicAccessBlock:BucketPublicAccessBlock",
    "name: assets-pab",
    "properties:",
    "  bucket: assets",
    "  blockPublicAcls: true"]
  after := lines [
    "type: aws:s3/bucketPublicAccessBlock:BucketPublicAccessBlock",
    "name: assets-pab",
    "properties:",
    "  bucket: assets",
    "  blockPublicAcls: true",
    "  blockPublicPolicy: true",
    "  ignorePublicAcls: true",
    "  restrictPublicBuckets: true"]

/-- Workloads without the required labels. -/
def requiredLabels : Guidance where
  title := "Required Workload Labels"
  hint := "Add the missing labels to the workload metadata."
  description := lines [
    "Detects workloads whose `metadata.labels` omit a configured required label.",
    "",
    "The default set follows the `app.kubernetes.io/*` recommended labels so that",
    "ownership, version and component are discoverable by tooling. The required set",
    "is configurable per policy."]
  remediation := lines [
    "Add every required key under `metadata.labels`, or adjust `required_labels` in",
    "`stackguard.toml` if your organisation uses a different convention."]
  before := lines [
    "metadata:",
    "  labels:",
    "    app: myapp"]
  after := lines [
    "metadata:",
    "  labels:",
    "    app.kubernetes.io/name: myapp",
    "    app.kubernetes.io/instance: myapp-prod",
    "    app.kubernetes.io/version: 1.4.2",
    "    app.kubernetes.io/component: api",
    "    app.kubernetes.io/part-of: storefront",
    "    app.kubernetes.io/managed-by: pulumi"]

/-- Containers whose image can change under its name. -/
def noMutableImageTag : Guidance where
  title := "No Mutable Image Tags"
  hint := "Pin the image to an explicit version tag or a digest."
  description := lines [
    "Detects container images referenced by `latest` or without any tag.",
    "",
    "An untagged reference resolves to `latest`. Mutable tags make rollouts",
    "non-reproducible and let a registry push silently change what runs."]
  remediation := lines [
    "Reference an explicit version tag (`nginx:1.21.0`) or, better, a digest",
    "(`nginx@sha256:...`)."]
  before := lines [
    "containers:",
    "  - name: app",
    "    image: myapp:latest"]
  after := lines [
    "containers:",
    "  - name: app",
    "    image: myapp:2.3.1"]

/-- Containers with all privileges. -/
def noPrivilegedContainers : Guidance where
  title := "No Privileged Containers"
  hint := "Remove `securityContext.privileged: true` from the container."
  description := lines [
    "Detects containers running in privileged mode.",
    "",
    "A privileged container has all capabilities and access to host devices. A",
    "compromise of the container is effectively a compromise of the node."]
  remediation := lines [
    "Drop `privileged: true`. Grant only the specific capabilities the workload needs",
    "via `securityContext.capabilities.add`."]
  before := lines [
    "securityContext:",
    "  privileged: true"]
  after := lines [
    "securityContext:",
    "  privileged: false",
    "  capabilities:",
    "    drop: [ALL]"]

/-- Containers without limits. -/
def resourceLimitsRequired : Guidance where
  title := "Container Resource Limits Required"
  hint := "Set `resources.limits.cpu` and `resources.limits.memory` on the container."
  description := lines [
    "Detects containers without both CPU and memory limits.",
    "",
    "Unbounded containers can starve neighbours on the same node and make capacity",
    "planning impossible."]
  remediation := lines [
    "Declare `resources.limits` with both `cpu` and `memory`, and matching",
    "`resources.requests`."]
  before := lines [
    "containers:",
    "  - name: app",
    "    image: myapp:2.3.1"]
  after := lines [
    "containers:",
    "  - name: app",
    "    image: myapp:2.3.1",
    "    resources:",
    "      limits:",
    "        cpu: 200m",
    "        memory: 256Mi"]

/-- Containers that may run as root. -/
def nonRootRequired : Guidance where
  title := "Non-Root Containers Required"
  hint :=
    "Set `runAsNonRoot: true` and `allowPrivilegeEscalation: false` in the security context."
  description := lines [
    "Detects containers that may run as root or escalate privileges.",
    "",
    "Both `securityContext.runAsNonRoot: true` and",
    "`securityContext.allowPrivilegeEscalation: false` must be set explicitly;",
    "absent values fall back to permissive runtime defaults."]
  remediation := lines [
    "Build images with a non-root user, then declare both settings in the",
    "container's security context."]
  before := "securityContext: \x7b\x7d"
  after := lines [
    "securityContext:",
    "  runAsNonRoot: true",
    "  runAsUser: 1000",
    "  allowPrivilegeEscalation: false"]

/-- The guidance on each built-in rule, by its key. -/
def table : List (String × Guidance) :=
  [(RuleKey.noPublicAcl, noPublicAcl),
   (RuleKey.encryptionRequired, encryptionRequired),
   (RuleKey.versioningRequired, versioningRequired),
   (RuleKey.accessLoggingRecommended, accessLoggingRecommended),
   (RuleKey.publicAccessBlockRequired, publicAccessBlockRequired),
   (RuleKey.requiredLabels, requiredLabels),
   (RuleKey.noMutableImageTag, noMutableImageTag),
   (RuleKey.noPrivilegedContainers, noPrivilegedContainers),
   (RuleKey.resourceLimitsRequired, resourceLimitsRequired),
   (RuleKey.nonRootRequired, nonRootRequired)]

/-- The guidance on the rule with the given key. -/
def find? (key : String) : Option Guidance := table.lookup key

/-- The remedy for violations of the rule with the given key. -/
def hint? (key : String) : Option String := (find? key).map hint

end Guidance

end StackAudit
