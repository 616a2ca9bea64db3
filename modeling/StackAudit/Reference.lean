import StackAudit.Text.Blank
import StackAudit.Text.Pieces

/-!
# References between resources

A reference names a resource by its id, by a uniform resource name whose last part is the id, or by
an interpolation of one of its attributes.
-/
namespace StackAudit.Reference

open StackAudit.Text

/-- The characters behind the last double colon, given all of them in reverse. -/
def behindLastColons (found : List Char) : List Char → List Char
  | [] => found
  | ':' :: ':' :: _ => found
  | c :: r => behindLastColons (c :: found) r

/-- The last part of a uniform resource name. -/
def urnName (urn : String) : String := String.ofList (behindLastColons [] urn.toList.reverse)

/-- The attributes that an interpolation may name. -/
def attributes : List String := [".id", ".bucket", ".arn", ".name"]

/-- A name without the attribute at its end, if there is one. -/
def dropAttribute (s : String) : String :=
  (attributes.findSome? fun a => before? a s).getD s

/-- What stands between the marks of an interpolation. -/
def interpolated? (s : String) : Option String :=
  (behind? "$\x7b" s).bind (before? "\x7d")

/-- The id or alias that a reference names. -/
def key (reference : String) : String :=
  let whole := trim reference
  let k := match interpolated? whole with
    | some inner => dropAttribute (trim inner)
    | none => whole
  if startsWith "urn:" k then urnName k else k

end StackAudit.Reference
