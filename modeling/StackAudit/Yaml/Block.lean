import StackAudit.Text.Pieces
import StackAudit.Yaml.Token

/-!
# Block scalars

A block scalar is literal or folded. Its header may give its indentation and what happens to the
line breaks at its end; without the former, the first line that is not empty decides.
-/
namespace StackAudit.Yaml

/-- What happens to the breaks at the end. -/
inductive Chomping where
  /-- One break is kept. -/
  | clip
  | strip
  | keep
deriving DecidableEq

structure BlockHeader where
  folded : Bool
  chomping : Chomping
  /-- The indentation relative to what is around the scalar, if it is given. -/
  increment : Option Nat

def ofChompingMark? (c : Char) : Option Chomping :=
  if c = '+' then some .keep else if c = '-' then some .strip else none

/-- The mark for chomping at the front, if there is one. -/
def spanChomping : List Cell → Option Chomping × List Cell
  | [] => (none, [])
  | c :: r => match ofChompingMark? c.char with
    | some m => (some m, r)
    | none => (none, c :: r)

/-- The digit for indentation at the front, if there is one; it must not be zero. -/
def spanIncrement? : List Cell → Option (Option Nat × List Cell)
  | [] => some (none, [])
  | c :: r => match Text.digit? c.char with
    | some 0 => none
    | some n => some (some n, r)
    | none => some (none, c :: r)

/-- Reads the line behind the indicator of a block scalar. The two marks come in either order. -/
def readBlockHeader? (folded : Bool) (cs : List Cell) : Option (BlockHeader × List Cell) := do
  let (early, rest) := spanChomping cs
  let (increment, rest) ← spanIncrement? rest
  let (late, rest) := if early.isNone && increment.isSome then spanChomping rest else (none, rest)
  return (⟨folded, ((early.or late).getD .clip), increment⟩, ← finishLine? rest)

/-- What is known of a block scalar while it is read. -/
structure BlockState where
  /-- The text so far, in reverse. -/
  text : List Char := []
  /-- The break that ended the last line of content. -/
  lineBreak : Option Char := none
  /-- The breaks of the empty lines since, in reverse. -/
  emptyLines : List Char := []
  /-- Whether the last line of content started with white space. -/
  indented : Bool := false
  /-- The indentation, once it is known. -/
  indent : Option Nat := none
  /-- The widest indentation of the lines before it is known. -/
  widest : Nat := 0
  /-- Whether a line of content is being read. -/
  inContent : Bool := false

namespace BlockState

/-- Whether a column belongs to the indentation. -/
def inIndent (s : BlockState) (column : Nat) : Bool := s.indent.all (column < ·)

/-- Starts a line of content. Between two lines of a folded scalar that both start without white
space a single break becomes a space, and the first of several goes away. -/
def startLine (s : BlockState) (folded white : Bool) : BlockState :=
  let folds := folded && s.lineBreak == some '\n' && !s.indented && !white
  let lead := if folds then (if s.emptyLines.isEmpty then [' '] else []) else s.lineBreak.toList
  { s with
    text := s.emptyLines ++ lead ++ s.text
    lineBreak := none
    emptyLines := []
    indented := white
    inContent := true }

/-- The whole text. -/
def finish (s : BlockState) (chomping : Chomping) : String :=
  let lead := if chomping = .strip then [] else s.lineBreak.toList
  let tail := if chomping = .keep then s.emptyLines else []
  String.ofList (tail ++ lead ++ s.text).reverse

end BlockState

/-- Reads the lines of a block scalar, where `least` is the least indentation they may have. -/
def readBlockLines? (h : BlockHeader) (least : Nat) (s : BlockState) :
    List Cell → Option (String × List Cell)
  | [] => some (s.finish h.chomping, [])
  | c :: r =>
    if s.inContent then
      if c.breaks then
        readBlockLines? h least { s with lineBreak := some c.char, inContent := false } r
      else readBlockLines? h least { s with text := c.char :: s.text } r
    else if c.char == ' ' && s.inIndent c.column then readBlockLines? h least s r
    else
      let s := { s with widest := max s.widest c.column }
      if c.char == '\t' && s.inIndent c.column then none
      else if c.breaks then
        readBlockLines? h least { s with emptyLines := c.char :: s.emptyLines } r
      else
        let indent := s.indent.getD (max s.widest (max least 1))
        if c.column = indent then
          let s := { s with indent := some indent }.startLine h.folded (isWhite c.char)
          readBlockLines? h least { s with text := c.char :: s.text } r
        else some (s.finish h.chomping, c :: r)

/-- Reads a block scalar behind its indicator, inside of the given indentation. -/
def readBlock? (folded : Bool) (around : Option Nat) (cs : List Cell) :
    Option (String × List Cell) := do
  let (h, rest) ← readBlockHeader? folded cs
  let indent := h.increment.map fun n => (around.getD 0) + n
  let least := (around.map (· + 1)).getD 0
  readBlockLines? h least { indent := indent } rest

end StackAudit.Yaml
