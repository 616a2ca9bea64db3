import StackAudit.Adapter
import StackAudit.Rules.AccessBlock

/-!
# Blocks of public access

Declarations of access blocks. Each flag has two spellings, and the block must name its bucket.
-/
namespace StackAudit.Adapters

open Json (firstOf?)

def accessBlockTokens : List String := ["aws:s3/bucketPublicAccessBlock:BucketPublicAccessBlock"]

/-- A key with an underscore and a small letter for each capital letter. -/
def snakeCase (s : String) : String :=
  String.ofList (s.toList.flatMap fun c => if c.isUpper then ['_', c.toLower] else [c])

/-- Writes a flag under its first spelling, if it is there in one of them. -/
def setFlag (fields : List (String × Json)) (properties : KeyMap Json) (flag : String) :
    KeyMap Json :=
  match firstOf? fields [flag, snakeCase flag] with
  | none => properties
  | some v => properties.insert flag v.canonical

/-- What the block says about its bucket, which must not be blank. -/
def blockedBucket (d : Declaration) (fields : List (String × Json)) : Except Malformed String :=
  match (fields.lookup "bucket").bind Json.asStr? with
  | none => .error (d.misshaped "bucket" "a bucket reference")
  | some bucket =>
    if Text.trim bucket = "" then .error (d.misshaped "bucket" "a bucket reference") else .ok bucket

def accessBlock : Adapter := fun d => do
  let fields ← d.fields
  let bucket ← blockedBucket d fields
  let flagged := Rules.blockFlags.foldl (setFlag fields) d.canonicalProperties
  let properties := flagged.insert "bucket" (.str bucket)
  return { resource := d.toResource .accessBlock properties, references := [bucket] }

end StackAudit.Adapters
