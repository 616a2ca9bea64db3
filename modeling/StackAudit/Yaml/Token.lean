import StackAudit.Yaml.Cell

/-!
# Tokens of YAML text
-/
namespace StackAudit.Yaml

/-- A token. Indentation shows as tokens where block collections start and end. -/
inductive Token where
  | version (major minor : Nat)
  /-- A handle of tags is declared, with what it stands for. -/
  | handle (name : String) (meaning : List UInt8)
  | documentStart
  | documentEnd
  | blockSequence
  | blockMapping
  | blockEnd
  | flowSequence
  | flowSequenceEnd
  | flowMapping
  | flowMappingEnd
  /-- An entry of a block sequence. -/
  | entry
  | comma
  | key
  | value
  | anchor (name : String)
  | alias (name : String)
  | tag (handle : String) (suffix : List UInt8)
  | scalar (text : String) (plain : Bool)
deriving DecidableEq

/-- Whether the character may stand in names of anchors, handles and directives. -/
def isNameChar (c : Char) : Bool := c.isAlphanum || c == '_' || c == '-'

/-- A name at the front, perhaps empty, and what follows. -/
def spanName (cs : List Cell) : String × List Cell :=
  (String.ofList ((cs.takeWhile (isNameChar ·.char)).map Cell.char),
    cs.dropWhile (isNameChar ·.char))

/-- Drops spaces and tabs at the front. -/
def skipWhite (cs : List Cell) : List Cell := cs.dropWhile (isWhite ·.char)

/-- Drops what is left of a line that may only hold a comment, with its break. -/
def finishLine? (cs : List Cell) : Option (List Cell) :=
  let rest := skipWhite cs
  let rest := if (rest.head?.map Cell.char) = some '#' then rest.dropWhile (!·.breaks) else rest
  match rest with
  | [] => some []
  | c :: r => if c.breaks then some r else none

/-- The name behind the mark of an anchor or alias, and what follows. -/
def readAnchorName? (cs : List Cell) : Option (String × List Cell) :=
  let (name, rest) := spanName cs
  let closed := match rest with
    | [] => true
    | c :: _ => c.isGap || "?:,]\x7d%@\x60".toList.contains c.char
  if name = "" || !closed then none else some (name, rest)

end StackAudit.Yaml
