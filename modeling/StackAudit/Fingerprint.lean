import StackAudit.Sha256
import StackAudit.Text.Pieces

/-!
# Fingerprints

The identity of a violation is its rule, the kind of the resource and the id of the resource. The
message is no part of it, so a violation keeps its fingerprint when its wording changes.
-/
namespace StackAudit.Fingerprint

/-- The text that identifies a violation. -/
def identity (ruleKey kind id : String) : String := ruleKey ++ "|" ++ kind ++ "|" ++ id

/-- Two lower-case hexadecimal digits for each byte. -/
def hex (bytes : List UInt8) : String :=
  String.ofList (bytes.flatMap fun b => [Text.hexDigit (b.toNat / 16), Text.hexDigit (b.toNat % 16)])

/-- The digest of the identity. -/
def of (ruleKey kind id : String) : String :=
  hex (Sha256.digest (identity ruleKey kind id).toUTF8.toList)

end StackAudit.Fingerprint
