import StackAudit.Yaml.Block
import StackAudit.Yaml.Plain
import StackAudit.Yaml.Quoted
import StackAudit.Yaml.Tag

/-!
# From text to tokens

Tokens are found from left to right. What may be a key is noted when it starts: only the colon
behind it tells, and then the tokens for the key, and for a block mapping that starts with it, go
before those of the key itself. A key must end on its line, and soon.
-/
namespace StackAudit.Yaml

/-- Something that may be a key. -/
structure KeyStart where
  cell : Cell
  /-- How many tokens are before it. -/
  before : Nat
  /-- It starts a line of a block mapping, so it has to be a key. -/
  required : Bool

/-- What is known of the text so far. -/
structure Layout where
  /-- The tokens, in reverse. -/
  tokens : List Token := []
  /-- The columns of the open block collections, innermost first. -/
  indents : List Nat := []
  /-- What may be a key in the innermost collection. -/
  key : Option KeyStart := none
  /-- The same for what is around each open flow collection, innermost first. -/
  outer : List (Option KeyStart) := []
  /-- Whether a key may start here. -/
  keyAllowed : Bool := true

namespace Layout

def inFlow (s : Layout) : Bool := !s.outer.isEmpty

def emit (s : Layout) (t : Token) : Layout := { s with tokens := t :: s.tokens }

/-- Puts a token behind the first `n` ones. -/
def emitAt (s : Layout) (n : Nat) (t : Token) : Layout :=
  let later := s.tokens.length - n
  { s with tokens := s.tokens.take later ++ t :: s.tokens.drop later }

/-- Ends the innermost block collections, one for each column that the list lost. -/
def endBlocks (s : Layout) (indents : List Nat) : Layout :=
  { s with
    tokens := List.replicate (s.indents.length - indents.length) .blockEnd ++ s.tokens
    indents := indents }

/-- Ends the block collections that are indented further than the column. -/
def unindent (s : Layout) (column : Nat) : Layout :=
  if s.inFlow then s else s.endBlocks (s.indents.dropWhile (column < ·))

/-- Ends all block collections. -/
def unindentAll (s : Layout) : Layout := if s.inFlow then s else s.endBlocks []

/-- Whether a block collection at the column would be indented further than those around it. -/
def isDeeper (s : Layout) (column : Nat) : Bool := s.indents.head?.all (· < column)

/-- Starts a block collection behind the first `n` tokens, unless one is open at the column. -/
def indentAt (s : Layout) (n column : Nat) (t : Token) : Layout :=
  if s.inFlow || !s.isDeeper column then s
  else { s.emitAt n t with indents := column :: s.indents }

/-- Starts a block collection, which may happen only where a key may start. -/
def indent? (s : Layout) (column : Nat) (t : Token) : Option Layout :=
  if s.inFlow then some s
  else if !s.keyAllowed then none
  else some (s.indentAt s.tokens.length column t)

/-- Gives up what might have been a key. -/
def dropKey? (s : Layout) : Option Layout :=
  if s.key.any KeyStart.required then none else some { s with key := none }

/-- Notes that a key may start at the cell. -/
def noteKey? (s : Layout) (c : Cell) : Option Layout :=
  if !s.keyAllowed then some s
  else do
    let required := !s.inFlow && s.indents.head? == some c.column
    return { ← s.dropKey? with key := some ⟨c, s.tokens.length, required⟩ }

/-- The longest distance between the start of a key and its colon. -/
def maxKeyLength : Nat := 1024

/-- Whether a key that started there can end at the cell. -/
def KeyStart.reaches (k : KeyStart) (c : Cell) : Bool :=
  k.cell.line == c.line && c.column ≤ k.cell.column + maxKeyLength

/-- Makes what may be a key into one. -/
def closeKey (s : Layout) (k : KeyStart) : Layout :=
  let s := (s.emitAt k.before .key).indentAt k.before k.cell.column .blockMapping
  { s with key := none, keyAllowed := false }

/-- Reads the colon of a value without a key on its line. -/
def bareValue? (s : Layout) (c : Cell) : Option Layout := do
  let s ← s.indent? c.column .blockMapping
  return { s with keyAllowed := !s.inFlow }.emit .value

/-- Reads the colon of a value. -/
def value? (s : Layout) (c : Cell) : Option Layout :=
  match s.key with
  | some k =>
    if KeyStart.reaches k c then some ((s.closeKey k).emit .value)
    else if k.required then none
    else { s with key := none }.bareValue? c
  | none => s.bareValue? c

/-- Reads the mark of a key. -/
def key? (s : Layout) (c : Cell) : Option Layout := do
  let s ← (← s.indent? c.column .blockMapping).dropKey?
  return { s with keyAllowed := !s.inFlow }.emit .key

/-- Reads the mark of an entry of a block sequence. -/
def entry? (s : Layout) (c : Cell) : Option Layout := do
  let s ← (← s.indent? c.column .blockSequence).dropKey?
  return { s with keyAllowed := true }.emit .entry

/-- Reads a directive or a mark between documents. -/
def boundary? (s : Layout) (t : Token) : Option Layout := do
  let s ← s.unindentAll.dropKey?
  return { s with keyAllowed := false }.emit t

/-- Reads the start of a flow collection. -/
def openFlow? (s : Layout) (c : Cell) (t : Token) : Option Layout := do
  let s ← s.noteKey? c
  return { s with key := none, outer := s.key :: s.outer, keyAllowed := true }.emit t

/-- Reads the end of a flow collection. -/
def closeFlow? (s : Layout) (t : Token) : Option Layout := do
  let s ← s.dropKey?
  let s := match s.outer with
    | [] => s
    | k :: outer => { s with key := k, outer := outer }
  return { s with keyAllowed := false }.emit t

def comma? (s : Layout) : Option Layout := do
  return { ← s.dropKey? with keyAllowed := true }.emit .comma

/-- Reads an anchor, alias, tag or quoted scalar, at which a key may start. -/
def inline? (s : Layout) (c : Cell) (t : Token) : Option Layout := do
  return { ← s.noteKey? c with keyAllowed := false }.emit t

/-- Reads a plain scalar; behind one that a line break follows a key may start. -/
def plain? (s : Layout) (c : Cell) (text : List Char) (broken : Bool) : Option Layout := do
  return { ← s.noteKey? c with keyAllowed := broken }.emit (.scalar (String.ofList text) true)

/-- Reads a block scalar. -/
def block? (s : Layout) (text : String) : Option Layout := do
  return { ← s.dropKey? with keyAllowed := true }.emit (.scalar text false)

/-- Drops what stands before the next token: a byte order mark at the start of a line, white space,
comments and breaks. The second answer tells whether a key may start there. Where one may, a tab is
no white space. -/
def skipGap (flow keyAllowed comment : Bool) : List Cell → List Cell × Bool
  | [] => ([], keyAllowed)
  | c :: r =>
    if c.breaks then skipGap flow (keyAllowed || !flow) false r
    else if comment then skipGap flow keyAllowed true r
    else if c.char == ' ' || (c.char == '\t' && (flow || !keyAllowed)) ||
        (c.char.toNat == 0xFEFF && c.column == 0) then
      skipGap flow keyAllowed false r
    else if c.char == '#' then skipGap flow keyAllowed true r
    else (c :: r, keyAllowed)

/-- Whether the character cannot start a plain scalar, unless it is `-`, `?` or `:` in a word. -/
def isIndicator (c : Char) : Bool := "-?:,[]\x7b\x7d#&*!|>'\"%@\x60".toList.contains c

/-- Whether a plain scalar starts here. -/
def startsPlain (flow : Bool) (c : Cell) (rest : List Cell) : Bool :=
  !(c.isGap || isIndicator c.char) ||
    (c.char == '-' && !(rest.head?.any (isWhite ·.char))) ||
    (!flow && (c.char == '?' || c.char == ':') && !Cell.endWord rest)

/-- Reads a token that starts with a mark of its own. -/
def mark? (s : Layout) (c : Cell) (r : List Cell) : Option (Layout × List Cell) :=
  let go (t : Option Layout) : Option (Layout × List Cell) := t.map (·, r)
  match c.char with
  | '[' => go (s.openFlow? c .flowSequence)
  | '{' => go (s.openFlow? c .flowMapping)
  | ']' => go (s.closeFlow? .flowSequenceEnd)
  | '}' => go (s.closeFlow? .flowMappingEnd)
  | ',' => go s.comma?
  | '*' => do
    let (name, rest) ← readAnchorName? r
    return (← s.inline? c (.alias name), rest)
  | '&' => do
    let (name, rest) ← readAnchorName? r
    return (← s.inline? c (.anchor name), rest)
  | '!' => do
    let (tag, rest) ← readTag? s.inFlow r
    return (← s.inline? c tag, rest)
  | '\'' => do
    let (text, rest) ← readSingleQuoted? [] r
    return (← s.inline? c (.scalar (String.ofList text) false), rest)
  | '"' => do
    let (text, rest) ← readDoubleQuoted? (.gap []) r
    return (← s.inline? c (.scalar (String.ofList text) false), rest)
  | _ => none

/-- Reads the next token, where there is one. Marks come before plain scalars. -/
def token? (s : Layout) (c : Cell) (r : List Cell) : Option (Layout × List Cell) :=
  let spaced := Cell.endWord r
  if c.column == 0 && c.char == '%' then do
    let (t, rest) ← readDirective? r
    return (← s.boundary? t, rest)
  else if Cell.startsMark '-' (c :: r) then do
    return (← s.boundary? .documentStart, r.drop 2)
  else if Cell.startsMark '.' (c :: r) then do
    return (← s.boundary? .documentEnd, r.drop 2)
  else if c.char == '-' && spaced then do return (← s.entry? c, r)
  else if c.char == '?' && (s.inFlow || spaced) then do return (← s.key? c, r)
  else if c.char == ':' && (s.inFlow || spaced) then do return (← s.value? c, r)
  else if (c.char == '|' || c.char == '>') && !s.inFlow then do
    let (text, rest) ← readBlock? (c.char == '>') s.indents.head? r
    return (← s.block? text, rest)
  else if startsPlain s.inFlow c r then do
    let indent := (s.indents.head?.map (· + 1)).getD 0
    let (text, rest, broken) ← readPlain? s.inFlow indent [] (c :: r)
    return (← s.plain? c text broken, rest)
  else s.mark? c r

/-- Reads all tokens that are left. Each takes at least one cell, so the number of cells bounds the
number of steps. -/
def run? (fuel : Nat) (s : Layout) (cs : List Cell) : Option (List Token) :=
  match fuel with
  | 0 => none
  | fuel + 1 =>
    match skipGap s.inFlow s.keyAllowed false cs with
    | ([], _) => s.unindentAll.dropKey?.map (·.tokens.reverse)
    | (c :: r, keyAllowed) => do
      let (s, rest) ← { s with keyAllowed := keyAllowed }.unindent c.column |>.token? c r
      run? fuel s rest

end Layout

/-- The tokens of a text. -/
def tokens? (s : String) : Option (List Token) := do
  let cs ← Cell.ofText? s
  Layout.run? (cs.length + 1) {} cs

end StackAudit.Yaml
