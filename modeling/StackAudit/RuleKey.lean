/-!
# Rule keys

The keys of the built-in rules, in the order in which the rules are listed.
-/
namespace StackAudit.RuleKey

/-- Buckets open to everyone by a canned access list. -/
def noPublicAcl : String := "no-public-acl"

/-- Buckets without default encryption. -/
def encryptionRequired : String := "encryption-required"

/-- Buckets without versions. -/
def versioningRequired : String := "versioning-required"

/-- Buckets whose accesses are not logged. -/
def accessLoggingRecommended : String := "access-logging-recommended"

/-- Buckets without a complete block of public access. -/
def publicAccessBlockRequired : String := "public-access-block-required"

/-- Workloads without the required labels. -/
def requiredLabels : String := "required-labels"

/-- Containers whose image can change under its name. -/
def noMutableImageTag : String := "no-mutable-image-tag"

/-- Containers with all privileges. -/
def noPrivilegedContainers : String := "no-privileged-containers"

/-- Containers without limits. -/
def resourceLimitsRequired : String := "resource-limits-required"

/-- Containers that may run as root. -/
def nonRootRequired : String := "non-root-required"

/-- All keys of built-in rules. -/
def all : List String :=
  [noPublicAcl,
   encryptionRequired,
   versioningRequired,
   accessLoggingRecommended,
   publicAccessBlockRequired,
   requiredLabels,
   noMutableImageTag,
   noPrivilegedContainers,
   resourceLimitsRequired,
   nonRootRequired]

end StackAudit.RuleKey
