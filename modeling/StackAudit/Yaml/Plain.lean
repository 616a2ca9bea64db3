import StackAudit.Yaml.Cell

/-!
# Plain scalars

A plain scalar goes on over gaps, until an indicator, a comment, a mark between documents, or in
block context a line with too little indentation.
-/
namespace StackAudit.Yaml

/-- Whether the character has a meaning of its own in flow context. -/
def isFlowIndicator (c : Char) : Bool :=
  c == ',' || c == '[' || c == ']' || c == '{' || c == '}'

/-- Whether no word goes on behind a gap. -/
def endsPlain (flow : Bool) (indent : Nat) (c : Cell) (rest : List Cell) : Bool :=
  c.char == '#' || Cell.startsDocumentMark (c :: rest) || (!flow && c.column < indent)

/-- Whether the cell is an indicator that ends a word. -/
def endsPlainWord (flow : Bool) (c : Cell) (rest : List Cell) : Bool :=
  (c.char == ':' && Cell.endWord rest) || (flow && isFlowIndicator c.char)

/-- Whether a colon stands in flow context where it can be neither text nor an indicator. -/
def isStrayColon (flow : Bool) (c : Cell) (rest : List Cell) : Bool :=
  flow && c.char == ':' &&
    (rest.head?.map fun d => isFlowIndicator d.char || d.char == '?').getD false

/-- Reads a plain scalar, given the gap that was just read, in reverse. The answer tells what
follows, and whether a line break is before it. -/
def readPlain? (flow : Bool) (indent : Nat) (gap : List Cell) :
    List Cell → Option (List Char × List Cell × Bool)
  | [] => some ([], [], gap.any Cell.breaks)
  | c :: r =>
    if c.isGap then
      if c.char == '\t' && gap.any Cell.breaks && c.column < indent then none
      else readPlain? flow indent (c :: gap) r
    else if !gap.isEmpty && endsPlain flow indent c r then
      some ([], c :: r, gap.any Cell.breaks)
    else if isStrayColon flow c r then none
    else if endsPlainWord flow c r then some ([], c :: r, gap.any Cell.breaks)
    else (readPlain? flow indent [] r).map fun (text, rest, broken) =>
      (Cell.foldGap gap.reverse ++ c.char :: text, rest, broken)

end StackAudit.Yaml
