import StackAudit.Text.Pieces
import StackAudit.Yaml.Cell

/-!
# Quoted scalars

Gaps in quoted scalars are folded as in plain ones. In single quotes only the quote itself is
escaped, by doubling it; in double quotes a backslash starts an escape, and one at the end of a line
takes the break and the white space around it away.
-/
namespace StackAudit.Yaml

/-- Reads what stands in single quotes, given the gap that was just read, in reverse. -/
def readSingleQuoted? (gap : List Cell) : List Cell → Option (List Char × List Cell)
  | [] => none
  | c :: d :: r =>
    if c.isGap then readSingleQuoted? (c :: gap) (d :: r)
    else if Cell.startsDocumentMark (c :: d :: r) then none
    else if c.char != '\'' then
      (readSingleQuoted? [] (d :: r)).map fun (text, rest) =>
        (Cell.foldGap gap.reverse ++ c.char :: text, rest)
    else if d.char != '\'' then some (Cell.foldGap gap.reverse, d :: r)
    else (readSingleQuoted? [] r).map fun (text, rest) =>
      (Cell.foldGap gap.reverse ++ '\'' :: text, rest)
  | [c] => if c.char == '\'' then some (Cell.foldGap gap.reverse, []) else none

/-- Where the reader stands in double quotes. -/
inductive QuoteState where
  /-- In a gap, perhaps empty, kept in reverse. -/
  | gap (rev : List Cell)
  /-- Behind an escaped line break: only further breaks of the gap count. -/
  | joined (rev : List Cell)
  /-- Behind a backslash. -/
  | escape
  /-- In the digits of a code: its value so far, and how many digits are left. -/
  | code (value left : Nat)

/-- The text of the gap at which the reader stands. -/
def QuoteState.text : QuoteState → List Char
  | .gap rev => Cell.foldGap rev.reverse
  | .joined rev => (rev.reverse.filter Cell.breaks).map Cell.char
  | _ => []

/-- The state behind one more cell of a gap. -/
def QuoteState.widen (c : Cell) : QuoteState → QuoteState
  | .joined rev => .joined (c :: rev)
  | .gap rev => .gap (c :: rev)
  | s => s

/-- The character that a letter behind a backslash stands for. -/
def ofEscape? (c : Char) : Option Char :=
  [('0', 0), ('a', 7), ('b', 8), ('t', 9), ('\t', 9), ('n', 10), ('v', 11), ('f', 12), ('r', 13),
    ('e', 27), (' ', 32), ('"', 34), ('/', 47), ('\\', 92), ('N', 0x85), ('_', 0xA0),
    ('L', 0x2028), ('P', 0x2029)].lookup c |>.map Char.ofNat

/-- How many digits of a code follow a letter behind a backslash. -/
def codeLength? (c : Char) : Option Nat := [('x', 2), ('u', 4), ('U', 8)].lookup c

/-- The character of a code, unless it is half of a surrogate pair or beyond all characters. -/
def ofCode? (n : Nat) : Option Char := if n.isValidChar then some (Char.ofNat n) else none

/-- Reads what stands in double quotes. -/
def readDoubleQuoted? : QuoteState → List Cell → Option (List Char × List Cell)
  | _, [] => none
  | .escape, c :: r =>
    if c.breaks then readDoubleQuoted? (.joined []) r
    else match codeLength? c.char with
      | some n => readDoubleQuoted? (.code 0 n) r
      | none => do
        let x ← ofEscape? c.char
        let (text, rest) ← readDoubleQuoted? (.gap []) r
        return (x :: text, rest)
  | .code value left, c :: r => do
    let value := 16 * value + (← Text.hexValue? c.char)
    if left ≤ 1 then
      let x ← ofCode? value
      let (text, rest) ← readDoubleQuoted? (.gap []) r
      return (x :: text, rest)
    else readDoubleQuoted? (.code value (left - 1)) r
  | s, c :: r =>
    if c.isGap then readDoubleQuoted? (s.widen c) r
    else if Cell.startsDocumentMark (c :: r) then none
    else if c.char == '"' then some (s.text, r)
    else if c.char == '\\' then
      (readDoubleQuoted? .escape r).map fun (text, rest) => (s.text ++ text, rest)
    else
      (readDoubleQuoted? (.gap []) r).map fun (text, rest) => (s.text ++ c.char :: text, rest)

end StackAudit.Yaml
