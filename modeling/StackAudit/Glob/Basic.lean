/-!
# Glob patterns

A glob pattern is a list of parts. A text matches when the parts match its bytes one after the
other. Beside single characters, `?` and `*`, which also match a slash, there are the three forms of
`**` between slashes, classes and alternatives.
-/
namespace StackAudit.Glob

/-- A part of a glob pattern. -/
inductive Part where
  /-- A character that stands for itself. -/
  | literal (c : Char)
  /-- The part `?`: any byte. -/
  | any
  /-- The part `*`: any bytes. -/
  | star
  /-- The part `**/` at the beginning: nothing, or any directories and a slash. -/
  | anyDirs
  /-- The part `/**` at the end: a slash and anything. -/
  | anyBelow
  /-- The part `/**/` in the middle: a slash, or slashes around anything. -/
  | anyBetween
  /-- A class of characters, given by inclusive ranges. -/
  | oneOf (negated : Bool) (ranges : List (Char × Char))
  /-- Alternatives. -/
  | choice (branches : List (List Part))

instance : Inhabited Part := ⟨.any⟩

/-- Why a text is no glob pattern. -/
inductive PatternError where
  /-- A class is not closed. -/
  | unclosedClass
  /-- A range of a class runs downwards. -/
  | invalidRange (low high : Char)
  /-- A group of alternatives is closed that was not opened. -/
  | unopenedAlternates
  /-- A group of alternatives is not closed. -/
  | unclosedAlternates
  /-- The last character is a backslash that escapes nothing. -/
  | danglingEscape
deriving DecidableEq

end StackAudit.Glob
