/-!
# YAML text

A text is read as a list of cells: characters that know their line and column. A line break is one
cell, however it is written.
-/
namespace StackAudit.Yaml

/-- Whether a text may hold the character. -/
def isAllowed (c : Char) : Bool :=
  let n := c.toNat
  n == 0x09 || n == 0x0A || n == 0x0D || (0x20 ≤ n && n ≤ 0x7E) || n == 0x85 ||
    (0xA0 ≤ n && n != 0xFFFE && n != 0xFFFF)

/-- Writes a carriage return, alone or with a line feed, and a next line as one line feed. -/
def unifyBreaks : List Char → List Char
  | '\r' :: '\n' :: r => '\n' :: unifyBreaks r
  | c :: r => (if c = '\r' ∨ c.toNat = 0x85 then '\n' else c) :: unifyBreaks r
  | [] => []

/-- Whether the character ends a line. -/
def isBreak (c : Char) : Bool := c == '\n' || c.toNat == 0x2028 || c.toNat == 0x2029

/-- Whether the character is a space or a tab. -/
def isWhite (c : Char) : Bool := c == ' ' || c == '\t'

/-- A character with its place. -/
structure Cell where
  char : Char
  line : Nat
  column : Nat
deriving DecidableEq

namespace Cell

/-- The cells of a list of characters from a place on. -/
def ofChars (line column : Nat) : List Char → List Cell
  | [] => []
  | c :: r =>
    ⟨c, line, column⟩ :: if isBreak c then ofChars (line + 1) 0 r else ofChars line (column + 1) r

/-- The cells of a text, if it holds allowed characters only. -/
def ofText? (s : String) : Option (List Cell) :=
  if s.toList.all isAllowed then some (ofChars 0 0 (unifyBreaks s.toList)) else none

/-- Whether the cell ends a line. -/
def breaks (c : Cell) : Bool := isBreak c.char

/-- Whether the cell stands between words. -/
def isGap (c : Cell) : Bool := isWhite c.char || isBreak c.char

/-- Whether a word ends here: at a gap or at the end of the text. -/
def endWord : List Cell → Bool
  | [] => true
  | c :: _ => c.isGap

/-- Whether three times the character stands here at the start of a line, as a word. -/
def startsMark (mark : Char) : List Cell → Bool
  | a :: b :: c :: r =>
    a.column == 0 && a.char == mark && b.char == mark && c.char == mark && endWord r
  | _ => false

/-- Whether a mark between documents stands here. -/
def startsDocumentMark (cs : List Cell) : Bool := startsMark '-' cs || startsMark '.' cs

/-- The text of a gap between two words of a scalar: without breaks it stands as it is; otherwise
the first break is folded, into a space if it is the only one. A break that is not a line feed is
never folded. -/
def foldGap (gap : List Cell) : List Char :=
  match gap.filter breaks with
  | [] => gap.map char
  | b :: more =>
    if b.char != '\n' then b.char :: more.map char
    else if more.isEmpty then [' ']
    else more.map char

end Cell

end StackAudit.Yaml
