import StackAudit.Glob.Basic

/-!
# Reading glob patterns

The characters of a pattern are read one after the other. Open groups of alternatives are kept on a
stack, each with the parts in front of it and the alternatives that are complete. `**` is special
only where it fills the room between two slashes or ends; everywhere else it is two stars.
-/
namespace StackAudit.Glob

/-- A class whose closing bracket is not yet read. -/
structure OpenClass where
  /-- Whether the class is negated. -/
  negated : Bool
  /-- The ranges so far, the last one first. -/
  ranges : List (Char × Char)
  /-- Whether a dash waits for the end of its range. -/
  inRange : Bool
  /-- Whether no member is read yet. -/
  atStart : Bool

/-- The parts read so far. -/
structure Reading where
  /-- The parts of the current alternative, the last one first. -/
  current : List Part := []
  /-- The open groups, innermost first: the parts before the group and its complete alternatives,
  both in reverse. -/
  groups : List (List Part × List (List Part)) := []
  /-- The character read before. -/
  previous : Option Char := none

namespace Reading

/-- Adds a part. -/
def push (r : Reading) (p : Part) : Reading := { r with current := p :: r.current }

/-- Remembers the character just read. -/
def reading (r : Reading) (c : Char) : Reading := { r with previous := some c }

/-- Opens a group of alternatives. -/
def openGroup (r : Reading) : Reading :=
  { r with current := [], groups := (r.current, []) :: r.groups }

/-- Goes on to the next alternative; outside of groups a comma stands for itself. -/
def comma (r : Reading) : Reading :=
  match r.groups with
  | [] => r.push (.literal ',')
  | (before, done) :: gs =>
    { r with current := [], groups := (before, r.current.reverse :: done) :: gs }

/-- Closes the innermost group. -/
def closeGroup (r : Reading) : Except PatternError Reading :=
  match r.groups with
  | [] => .error .unopenedAlternates
  | (before, done) :: gs =>
    .ok { r with
      current := .choice (r.current.reverse :: done).reverse :: before
      groups := gs }

/-- What `**` means when `next` follows it. -/
inductive DoubleStar where
  /-- Two stars. -/
  | plain
  /-- Directories at the beginning. -/
  | leading
  /-- Anything below, at the end. -/
  | trailing
  /-- Directories in the middle. -/
  | middle
deriving DecidableEq

/-- The meaning of `**` by what stands around it. At the beginning of a pattern or alternative it
needs a slash or the end behind it; elsewhere a slash before it, and behind it a slash, the end, or
the end of an alternative. -/
def doubleStar (r : Reading) (next : Option Char) : DoubleStar :=
  if r.current.isEmpty then
    if next = none ∨ next = some '/' then .leading else .plain
  else if r.previous ≠ some '/' ∧
      (r.groups.isEmpty ∨ (r.previous ≠ some ',' ∧ r.previous ≠ some '{')) then .plain
  else match next with
    | none => .trailing
    | some '/' => .middle
    | some c => if (c = ',' ∨ c = '}') ∧ !r.groups.isEmpty then .trailing else .plain

/-- Puts `**` in the place of the part before it, unless that part already stands for directories
at an end. -/
def replaceLast (r : Reading) (p : Part) : Reading :=
  match r.current with
  | .anyDirs :: _ => r
  | .anyBelow :: _ => r
  | _ :: ps => { r with current := p :: ps }
  | [] => r.push p

/-- Reads `**` with its meaning, except for the slash that may follow it. -/
def pushDoubleStar (r : Reading) : DoubleStar → Reading
  | .plain => (r.push .star).push .star
  | .leading => r.push .anyDirs
  | .trailing => r.replaceLast .anyBelow
  | .middle => r.replaceLast .anyBetween

/-- The end of the range that was opened last. -/
def endRange (ranges : List (Char × Char)) (c : Char) :
    Except PatternError (List (Char × Char)) :=
  match ranges with
  | (low, _) :: rest =>
    if c < low then .error (.invalidRange low c) else .ok ((low, c) :: rest)
  | [] => .ok [(c, c)]

/-- Reads a member of a class. -/
def classMember (k : OpenClass) (c : Char) : Except PatternError OpenClass :=
  if k.inRange then do
    return { k with ranges := ← endRange k.ranges c, inRange := false, atStart := false }
  else if c = '-' ∧ !k.atStart then
    return { k with inRange := true }
  else
    return { k with ranges := (c, c) :: k.ranges, atStart := false }

/-- The part of a class whose closing bracket is read. A dash at its end is a member. -/
def classPart (k : OpenClass) : Part :=
  .oneOf k.negated (if k.inRange then ('-', '-') :: k.ranges else k.ranges).reverse

mutual

/-- Reads the characters of a pattern. -/
def readParts (r : Reading) : List Char → Except PatternError Reading
  | [] => .ok r
  | '?' :: cs => readParts ((r.push .any).reading '?') cs
  | '*' :: '*' :: cs =>
    let d := r.doubleStar cs.head?
    let r' := r.pushDoubleStar d
    match cs with
    | '/' :: rest =>
      if d = .plain then readParts (r'.reading '*') ('/' :: rest)
      else readParts (r'.reading '/') rest
    | rest => readParts (r'.reading '*') rest
  | '*' :: cs => readParts ((r.push .star).reading '*') cs
  | '[' :: '!' :: cs => readClass r ⟨true, [], false, true⟩ cs
  | '[' :: '^' :: cs => readClass r ⟨true, [], false, true⟩ cs
  | '[' :: cs => readClass r ⟨false, [], false, true⟩ cs
  | '{' :: cs => readParts (r.openGroup.reading '{') cs
  | '}' :: cs => do readParts ((← r.closeGroup).reading '}') cs
  | ',' :: cs => readParts (r.comma.reading ',') cs
  | ['\\'] => .error .danglingEscape
  | '\\' :: c :: cs => readParts ((r.push (.literal c)).reading c) cs
  | c :: cs => readParts ((r.push (.literal c)).reading c) cs
termination_by cs => cs.length

/-- Reads the characters of a class up to its closing bracket. -/
def readClass (r : Reading) (k : OpenClass) : List Char → Except PatternError Reading
  | [] => .error .unclosedClass
  | c :: cs =>
    if c = ']' ∧ !k.atStart then readParts ((r.push (classPart k)).reading ']') cs
    else do readClass r (← classMember k c) cs
termination_by cs => cs.length

end

/-- The parts, if no group is left open. -/
def result (r : Reading) : Except PatternError (List Part) :=
  if r.groups.isEmpty then .ok r.current.reverse else .error .unclosedAlternates

end Reading

/-- Reads a glob pattern. -/
def parse (s : String) : Except PatternError (List Part) := do
  (← Reading.readParts {} s.toList).result

end StackAudit.Glob
