import StackAudit.Json.Basic

/-!
# Tokens of JSON text

A text is cut into tokens by a machine that is fed one character at a time. Texts may escape any
character; a half of a surrogate pair must be followed by its other half. Outside of texts, letters,
digits, signs and points run together into one word, which must be a constant or a numeral.
-/
namespace StackAudit.Json

open StackAudit.Text

/-- A token of JSON text. -/
inductive Token where
  /-- The character `[`. -/
  | openArr
  /-- The character `]`. -/
  | closeArr
  /-- An opening brace. -/
  | openObj
  /-- A closing brace. -/
  | closeObj
  /-- The character `,`. -/
  | comma
  /-- The character `:`. -/
  | colon
  /-- A text. -/
  | text (s : String)
  /-- A number. -/
  | number (n : Number)
  /-- The constant `true` or `false`. -/
  | bool (b : Bool)
  /-- The constant `null`. -/
  | null
deriving DecidableEq

namespace Token

/-- Where the machine stands. The characters of an unfinished text or word are kept in reverse. -/
inductive State where
  /-- Between tokens. -/
  | between
  /-- In a word. -/
  | word (rev : List Char)
  /-- In a text. -/
  | text (rev : List Char)
  /-- Behind a backslash. -/
  | escape (rev : List Char)
  /-- In the four digits of an escape: the first half of a pair, the digits so far, those left. -/
  | unit (rev : List Char) (high : Option Nat) (value left : Nat)
  /-- A second half must follow, and nothing of it is read yet. -/
  | pair (rev : List Char) (high : Nat)
  /-- A second half must follow, and its backslash is read. -/
  | pairSlash (rev : List Char) (high : Nat)

/-- Whether the character belongs to a word. -/
def isWordChar (c : Char) : Bool := c.isAlphanum || c == '+' || c == '-' || c == '.'

/-- Whether the character may stand between tokens. -/
def isSpace (c : Char) : Bool := c == ' ' || c == '\t' || c == '\n' || c == '\r'

/-- The token of a whole word. -/
def ofWord? (cs : List Char) : Option Token :=
  if cs = ['n', 'u', 'l', 'l'] then some .null
  else if cs = ['t', 'r', 'u', 'e'] then some (.bool true)
  else if cs = ['f', 'a', 'l', 's', 'e'] then some (.bool false)
  else (Number.read? cs).map .number

/-- The token of one character. -/
def ofMark? (c : Char) : Option Token :=
  if c = '[' then some .openArr
  else if c = ']' then some .closeArr
  else if c = '{' then some .openObj
  else if c = '}' then some .closeObj
  else if c = ',' then some .comma
  else if c = ':' then some .colon
  else none

/-- The character that a letter behind a backslash stands for. -/
def ofEscape? (c : Char) : Option Char :=
  if c = '"' then some '"'
  else if c = '\\' then some '\\'
  else if c = '/' then some '/'
  else if c = 'b' then some '\x08'
  else if c = 'f' then some '\x0c'
  else if c = 'n' then some '\n'
  else if c = 'r' then some '\r'
  else if c = 't' then some '\t'
  else none

/-- The state behind the four digits of an escape with the given value. -/
def afterUnit? (rev : List Char) (high : Option Nat) (value : Nat) : Option State :=
  match high with
  | some h =>
    if 0xDC00 ≤ value ∧ value ≤ 0xDFFF then
      some (.text (Char.ofNat (0x10000 + (h - 0xD800) * 0x400 + (value - 0xDC00)) :: rev))
    else none
  | none =>
    if 0xD800 ≤ value ∧ value ≤ 0xDBFF then some (.pair rev value)
    else if 0xDC00 ≤ value ∧ value ≤ 0xDFFF then none
    else some (.text (Char.ofNat value :: rev))

/-- Feeds a character to the machine between tokens. The tokens found are kept in reverse. -/
def feedBetween (done : List Token) (c : Char) : Option (State × List Token) :=
  if isSpace c then some (.between, done)
  else if c = '"' then some (.text [], done)
  else if isWordChar c then some (.word [c], done)
  else (ofMark? c).map fun t => (.between, t :: done)

/-- Feeds one character to the machine. -/
def feed : State × List Token → Char → Option (State × List Token)
  | (.between, done), c => feedBetween done c
  | (.word rev, done), c =>
    if isWordChar c then some (.word (c :: rev), done)
    else (ofWord? rev.reverse).bind fun t => feedBetween (t :: done) c
  | (.text rev, done), c =>
    if c = '"' then some (.between, .text (String.ofList rev.reverse) :: done)
    else if c = '\\' then some (.escape rev, done)
    else if c.toNat < 0x20 then none
    else some (.text (c :: rev), done)
  | (.escape rev, done), c =>
    if c = 'u' then some (.unit rev none 0 4, done)
    else (ofEscape? c).map fun x => (.text (x :: rev), done)
  | (.unit rev high value left, done), c =>
    (hexValue? c).bind fun d =>
      if left ≤ 1 then (afterUnit? rev high (16 * value + d)).map fun s => (s, done)
      else some (.unit rev high (16 * value + d) (left - 1), done)
  | (.pair rev high, done), c => if c = '\\' then some (.pairSlash rev high, done) else none
  | (.pairSlash rev high, done), c =>
    if c = 'u' then some (.unit rev (some high) 0 4, done) else none

/-- The tokens when the text ends: an open text is an error. -/
def finish? : State × List Token → Option (List Token)
  | (.between, done) => some done.reverse
  | (.word rev, done) => (ofWord? rev.reverse).map fun t => (t :: done).reverse
  | _ => none

/-- The tokens of a text. -/
def ofText? (cs : List Char) : Option (List Token) :=
  (cs.foldlM feed (.between, [])).bind finish?

end Token

end StackAudit.Json
