import StackAudit.Text.Pieces

/-!
# Tokens of TOML text

A text is cut into tokens by a machine that is fed one character at a time. White space and comments
end a token and leave none; line breaks count. A text between quotes may be of one line or of many;
in double quotes a backslash starts an escape.
-/
namespace StackAudit.Toml

/-- A token of TOML text. -/
inductive Token where
  /-- A bare key, a numeral or a constant. -/
  | word (cs : List Char)
  /-- A text between quotes, and whether it may hold lines. -/
  | text (s : String) (many : Bool)
  | newline
  | dot
  | equals
  | comma
  | openArr
  | closeArr
  | openObj
  | closeObj
deriving DecidableEq

namespace Token

/-- How a text is quoted. -/
structure Quotes where
  /-- Escapes are read, since the quotes are double. -/
  escapes : Bool
  many : Bool

/-- The character that quotes. -/
def Quotes.mark (q : Quotes) : Char := if q.escapes then '"' else '\''

/-- Where the machine stands. The characters of an unfinished token are kept in reverse. -/
inductive State where
  | between
  | comment
  | word (rev : List Char)
  /-- Behind one quote. -/
  | quote (escapes : Bool)
  /-- Behind two quotes: an empty text, unless a third one follows. -/
  | quotePair (escapes : Bool)
  /-- Behind the quotes of a text of many lines: a break here does not count. -/
  | start (escapes : Bool)
  | text (q : Quotes) (rev : List Char)
  /-- Behind quotes that may end a text of many lines. -/
  | closing (escapes : Bool) (rev : List Char) (count : Nat)
  | escape (many : Bool) (rev : List Char)
  /-- In the digits of a code: its value so far, and how many are left. -/
  | code (many : Bool) (rev : List Char) (value left : Nat)
  /-- Behind a backslash at the end of a line, before its break or behind it. -/
  | joining (rev : List Char) (broken : Bool)

/-- Whether the character may stand in words. -/
def isWordChar (c : Char) : Bool := c.isAlphanum || c == '_' || c == '-' || c == '+'

/-- Whether the character is a control character other than a tab. -/
def isControl (c : Char) : Bool := (c.toNat < 0x20 && c != '\t') || c.toNat == 0x7F

/-- Whether the character may stand in a text. -/
def isTextChar (many : Bool) (c : Char) : Bool :=
  !isControl c || (many && (c == '\n' || c == '\r'))

def ofMark? (c : Char) : Option Token :=
  [('\n', newline), ('.', dot), ('=', equals), (',', comma), ('[', openArr), (']', closeArr),
    ('\x7b', openObj), ('\x7d', closeObj)].lookup c

/-- The character that a letter behind a backslash stands for. -/
def ofEscape? (c : Char) : Option Char :=
  [('b', '\x08'), ('t', '\t'), ('n', '\n'), ('f', '\x0c'), ('r', '\r'), ('e', '\x1b'), ('"', '"'),
    ('\\', '\\')].lookup c

/-- How many digits of a code follow a letter behind a backslash. -/
def codeLength? (c : Char) : Option Nat := [('x', 2), ('u', 4), ('U', 8)].lookup c

/-- A state with the tokens so far, in reverse. -/
abbrev Progress := State × List Token

/-- The text of reversed characters as a token. -/
def ofText (many : Bool) (rev : List Char) : Token := .text (String.ofList rev.reverse) many

/-- Feeds a character between tokens. -/
def feedBetween (done : List Token) (c : Char) : Option Progress :=
  if c = ' ' ∨ c = '\t' ∨ c = '\r' then some (.between, done)
  else if c = '#' then some (.comment, done)
  else if c = '"' then some (.quote true, done)
  else if c = '\'' then some (.quote false, done)
  else if isWordChar c then some (.word [c], done)
  else (ofMark? c).map fun t => (.between, t :: done)

/-- Feeds a character to a text. -/
def feedText (q : Quotes) (rev : List Char) (done : List Token) (c : Char) : Option Progress :=
  if c = q.mark then
    if q.many then some (.closing q.escapes rev 1, done)
    else some (.between, ofText false rev :: done)
  else if c = '\\' ∧ q.escapes then some (.escape q.many rev, done)
  else if isTextChar q.many c then some (.text q (c :: rev), done)
  else none

/-- Feeds a character behind a backslash. -/
def feedEscape (many : Bool) (rev : List Char) (done : List Token) (c : Char) : Option Progress :=
  if many ∧ (c = ' ' ∨ c = '\t' ∨ c = '\r') then some (.joining rev false, done)
  else if many ∧ c = '\n' then some (.joining rev true, done)
  else match codeLength? c with
    | some n => some (.code many rev 0 n, done)
    | none => (ofEscape? c).map fun x => (.text ⟨true, many⟩ (x :: rev), done)

/-- Feeds a character behind a backslash at the end of a line. -/
def feedJoining (rev : List Char) (broken : Bool) (done : List Token) (c : Char) :
    Option Progress :=
  if c = '\n' then some (.joining rev true, done)
  else if c = ' ' ∨ c = '\t' ∨ c = '\r' then some (.joining rev broken, done)
  else if broken then feedText ⟨true, true⟩ rev done c
  else none

/-- Feeds one character to the machine. -/
def feed : Progress → Char → Option Progress
  | (.between, done), c => feedBetween done c
  | (.comment, done), c =>
    if c = '\n' then some (.between, newline :: done)
    else if isControl c ∧ c ≠ '\r' then none
    else some (.comment, done)
  | (.word rev, done), c =>
    if isWordChar c then some (.word (c :: rev), done)
    else feedBetween (.word rev.reverse :: done) c
  | (.quote escapes, done), c =>
    if c = (Quotes.mk escapes false).mark then some (.quotePair escapes, done)
    else feedText ⟨escapes, false⟩ [] done c
  | (.quotePair escapes, done), c =>
    if c = (Quotes.mk escapes true).mark then some (.start escapes, done)
    else feedBetween (ofText false [] :: done) c
  | (.start escapes, done), c =>
    if c = '\n' then some (.text ⟨escapes, true⟩ [], done)
    else if c = '\r' then some (.start escapes, done)
    else feedText ⟨escapes, true⟩ [] done c
  | (.text q rev, done), c => feedText q rev done c
  | (.closing escapes rev count, done), c =>
    let mark := (Quotes.mk escapes true).mark
    if c = mark then
      if count = 4 then some (.between, ofText true (mark :: mark :: rev) :: done)
      else some (.closing escapes rev (count + 1), done)
    else if count < 3 then feedText ⟨escapes, true⟩ (List.replicate count mark ++ rev) done c
    else feedBetween (ofText true (List.replicate (count - 3) mark ++ rev) :: done) c
  | (.escape many rev, done), c => feedEscape many rev done c
  | (.code many rev value left, done), c => do
    let value := 16 * value + (← Text.hexValue? c)
    if 1 < left then return (.code many rev value (left - 1), done)
    else if value.isValidChar then return (.text ⟨true, many⟩ (Char.ofNat value :: rev), done)
    else none
  | (.joining rev broken, done), c => feedJoining rev broken done c

/-- The tokens when the text ends: an open text is an error. -/
def finish? : Progress → Option (List Token)
  | (.between, done) => some done.reverse
  | (.comment, done) => some done.reverse
  | (.word rev, done) => some (.word rev.reverse :: done).reverse
  | (.quotePair _, done) => some (ofText false [] :: done).reverse
  | (.closing escapes rev count, done) =>
    let mark := (Quotes.mk escapes true).mark
    if count < 3 then none
    else some (ofText true (List.replicate (count - 3) mark ++ rev) :: done).reverse
  | _ => none

/-- Whether every carriage return is followed by a line feed. -/
def returnsArePaired : List Char → Bool
  | '\r' :: '\n' :: r => returnsArePaired r
  | c :: r => c != '\r' && returnsArePaired r
  | [] => true

/-- The tokens of a text. A byte order mark at its start is passed over. -/
def ofText? (s : String) : Option (List Token) :=
  let cs := match s.toList with
    | '\uFEFF' :: r => r
    | cs => cs
  if returnsArePaired cs then (cs.foldlM feed (.between, [])).bind finish? else none

end Token

end StackAudit.Toml
