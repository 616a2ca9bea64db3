import StackAudit.Text.Blank
import StackAudit.Text.Pieces

/-!
# Paths below a stack

A stack path is written with slashes, does not start with `./` and is never empty; the place itself
is `.`. Joining puts one path below another.
-/
namespace StackAudit

/-- A path written with slashes. -/
structure StackPath where
  /-- The text of the path. -/
  text : String
deriving DecidableEq

namespace StackPath

/-- Drops every leading `./`. -/
def dropDots : List Char → List Char
  | '.' :: '/' :: r => dropDots r
  | cs => cs

/-- The characters of the canonical path: slashes for backslashes, no leading `./`, never empty. -/
def canonicalChars (cs : List Char) : List Char :=
  match dropDots (cs.map fun c => if c = '\\' then '/' else c) with
  | [] => ['.']
  | r => r

/-- The canonical path of a text. -/
def ofText (s : String) : StackPath := ⟨String.ofList (canonicalChars s.toList)⟩

/-- The place itself. -/
def here : StackPath := ⟨"."⟩

instance : Inhabited StackPath := ⟨here⟩

/-- The path `q` below the path `p`. -/
def join (p q : StackPath) : StackPath :=
  if p.text = "." then q
  else if q.text = "." then p
  else ofText (String.ofList
    (Text.dropEndWhile (· == '/') p.text.toList ++ '/' :: q.text.toList))

/-- Whether the text is one that `ofText` gives: not empty, without backslash, and not starting
with `./`. -/
def IsCanonical (p : StackPath) : Prop :=
  p.text.toList ≠ [] ∧ '\\' ∉ p.text.toList ∧ ¬ ['.', '/'] <+: p.text.toList

instance (p : StackPath) : Decidable p.IsCanonical :=
  inferInstanceAs (Decidable (_ ∧ _ ∧ _))

@[simp] theorem join_here_left (q : StackPath) : here.join q = q := by simp [join, here]

@[simp] theorem join_here_right (p : StackPath) : p.join here = p := by
  by_cases h : p.text = "."
  · simp [join, h, here]; cases p; simp_all
  · simp [join, h, here]

end StackPath

end StackAudit
