import StackAudit.Rule
import StackAudit.RuleKey

/-!
# Blocks of public access

A bucket must be related to a block of public access that has every flag on. A missing block and an
incomplete one are the same violation; only the message tells them apart.
-/
namespace StackAudit.Rules

/-- The flags of a block. -/
def blockFlags : List String :=
  ["blockPublicAcls", "blockPublicPolicy", "ignorePublicAcls", "restrictPublicBuckets"]

/-- The flags that a block does not set to true. -/
def missingFlags (block : Resource) : List String :=
  blockFlags.filter fun flag => !(block.property? flag).any Json.isTrue

/-- What an incomplete block leaves open. -/
def gapsOf (block : Resource) : String :=
  let flags := ", ".intercalate (missingFlags block)
  s!"'{block.id}' leaves {flags} unset"

def publicAccessBlockRequired : Rule where
  key := RuleKey.publicAccessBlockRequired
  appliesTo := [.bucket]
  severity := .high
  judge r g :=
    let blocks := g.related r .accessBlock
    if blocks.isEmpty then
      .ok (.violation s!"bucket '{r.displayName}' has no public access block attached")
    else match blocks.find? fun b => (missingFlags b).isEmpty with
      | some b => .ok (.pass s!"public access is fully blocked by '{b.id}'")
      | none =>
        let gaps := "; ".intercalate (blocks.map gapsOf)
        .ok (.violation
          s!"bucket '{r.displayName}' public access block is incomplete: {gaps}")

end StackAudit.Rules
