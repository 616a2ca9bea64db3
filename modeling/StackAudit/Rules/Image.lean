import StackAudit.Rules.Containers
import StackAudit.Text.Pieces

/-!
# Image references

An image is pinned by a digest or by a tag other than `latest`. The tag follows a colon in the last
segment of the path, so the port of a registry is not taken for a tag.
-/
namespace StackAudit.Rules

/-- How an image reference names its version. -/
inductive ImageVersion where
  | digest
  | tag (name : String)
  | untagged
deriving DecidableEq

/-- The version in an image reference. -/
def ImageVersion.ofReference (image : String) : ImageVersion :=
  if Text.hasChar '@' image then .digest
  else
    let last := ((Text.splitLast '/' image).map Prod.snd).getD image
    match Text.splitFirst ':' last with
    | some (_, version) => if version = "" then .untagged else .tag version
    | none => .untagged

/-- What is wrong with the image of a container. -/
def imageIssues (c : ContainerSpec) : List String :=
  match (c.value.lookup? "image").bind Json.nonBlank? with
  | none => [s!"container '{c.name}' has no image"]
  | some image => match ImageVersion.ofReference image with
    | .digest => []
    | .tag name =>
      if name = "latest" then [s!"container '{c.name}' uses mutable tag 'latest' ({image})"]
      else []
    | .untagged => [s!"container '{c.name}' image '{image}' has no explicit tag"]

def noMutableImageTag : Rule where
  key := RuleKey.noMutableImageTag
  appliesTo := containerKinds
  severity := .medium
  judge r _ := judgeContainers r imageIssues "all images are pinned"

end StackAudit.Rules
