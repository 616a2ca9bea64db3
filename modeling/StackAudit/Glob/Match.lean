import StackAudit.Glob.Parser

/-!
# Matching glob patterns

A part of a pattern, put before a list of bytes, leaves some of the endings of the list. A text
matches when its parts can leave nothing. Endings are told apart by their length.
-/
namespace StackAudit.Glob

/-- The bytes of a character. -/
def bytesOfChar (c : Char) : List UInt8 := (String.singleton c).toUTF8.toList

/-- The endings of a list, the list itself first. -/
def endings : List UInt8 → List (List UInt8)
  | [] => [[]]
  | b :: bs => (b :: bs) :: endings bs

/-- Removes endings that occur before. -/
def distinct (ls : List (List UInt8)) : List (List UInt8) :=
  ls.foldr (fun l acc => if acc.any (·.length == l.length) then acc else l :: acc) []

/-- What is left behind the given bytes at the front. -/
def behindBytes (bs : List UInt8) (l : List UInt8) : List (List UInt8) :=
  (bs.isPrefixOf? l).toList

/-- The endings that start behind a slash. -/
def behindSlashes (l : List UInt8) : List (List UInt8) :=
  (endings l).filterMap fun
    | 47 :: r => some r
    | _ => none

/-- Whether a byte belongs to a range of characters. A range reaches from the last byte of its
first character to the first byte of its last one; their other bytes are members by themselves. -/
def inRange (b : UInt8) (range : Char × Char) : Bool :=
  let low := bytesOfChar range.1
  let high := bytesOfChar range.2
  if range.1 = range.2 then low.contains b
  else low.contains b || high.contains b ||
    (match low.getLast?, high.head? with
      | some l, some h => decide (l ≤ b) && decide (b ≤ h)
      | _, _ => false)

/-- Whether a part is written as nothing at all: alternatives without a nonempty one. -/
def Part.isNothing : Part → Bool
  | .choice [] => true
  | .choice (branch :: rest) => allNothing branch && (Part.choice rest).isNothing
  | _ => false
where
  /-- Whether all parts are written as nothing. -/
  allNothing : List Part → Bool
    | [] => true
    | p :: ps => p.isNothing && allNothing ps

mutual

/-- The endings that a part can leave of a list. -/
def Part.leaves : Part → List UInt8 → List (List UInt8)
  | .literal c, l => behindBytes (bytesOfChar c) l
  | .any, l => match l with
    | [] => []
    | _ :: r => [r]
  | .star, l => endings l
  | .anyDirs, l => distinct (l :: behindSlashes l)
  | .anyBelow, l => match l with
    | 47 :: r => endings r
    | _ => []
  | .anyBetween, l => match l with
    | 47 :: r => distinct (r :: behindSlashes r)
    | _ => []
  | .oneOf negated ranges, l => match l with
    | [] => []
    | b :: r => if ranges.any (inRange b) != negated then [r] else []
  | .choice branches, l =>
    if (Part.choice branches).isNothing then [l] else distinct (leavesAny branches l)

/-- The endings that a list of parts can leave of a list. -/
def leavesAll : List Part → List UInt8 → List (List UInt8)
  | [], l => [l]
  | p :: ps, l => distinct ((p.leaves l).flatMap (leavesAll ps))

/-- The endings that one of several alternatives can leave. Empty alternatives do not count. -/
def leavesAny : List (List Part) → List UInt8 → List (List UInt8)
  | [], _ => []
  | branch :: rest, l =>
    (if Part.isNothing.allNothing branch then [] else leavesAll branch l) ++ leavesAny rest l

end

/-- Whether the parts match the bytes. -/
def matchesBytes (parts : List Part) (l : List UInt8) : Bool :=
  match parts with
  | [.anyDirs] => true
  | _ => (leavesAll parts l).any List.isEmpty

/-- The characters of parts that are all literal. -/
def literalChars? (parts : List Part) : Option (List Char) :=
  parts.mapM fun
    | .literal c => some c
    | _ => none

/-- Whether a pattern speaks of the last component of a path by its name alone. -/
def isFileName (parts : List Part) : Bool :=
  match parts with
  | .anyDirs :: p :: ps =>
    match literalChars? (p :: ps) with
    | some cs => !cs.contains '/'
    | none => false
  | _ => false

/-- Whether a pattern asks only for an extension. -/
def isExtension (parts : List Part) : Bool :=
  let parts := match parts with
    | .anyDirs :: ps => ps
    | ps => ps
  match parts with
  | .star :: .literal '.' :: ps =>
    match literalChars? ps with
    | some cs => !cs.contains '/' && !cs.contains '.'
    | none => false
  | _ => false

/-- Whether a pattern asks only for a literal ending. -/
def isEnding (parts : List Part) : Bool :=
  let parts := match parts with
    | .anyDirs :: .star :: ps => ps
    | .anyDirs :: ps => ps
    | .star :: ps => ps
    | ps => ps
  (literalChars? parts).isSome

/-- Whether a pattern ends in a point and literal characters without a slash. -/
def endsInExtension (parts : List Part) : Bool :=
  go parts.reverse
where
  /-- Looks for the point from the end. -/
  go : List Part → Bool
    | .literal c :: ps => if c = '/' then false else if c = '.' then true else go ps
    | _ => false

/-- Whether a pattern looks at the name or the extension of the last component. -/
def looksAtName (parts : List Part) : Bool :=
  isFileName parts || isExtension parts || (!isEnding parts && endsInExtension parts)

/-- Whether the last component is `..`, which has neither name nor extension. -/
def endsInParent (l : List UInt8) : Bool :=
  (l.reverse.takeWhile (· != 47)) == [46, 46]

/-- Whether a text matches a pattern. -/
def isMatch (parts : List Part) (s : String) : Bool :=
  let l := s.toUTF8.toList
  matchesBytes parts l && !(looksAtName parts && endsInParent l)

end StackAudit.Glob
