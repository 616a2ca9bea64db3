import StackAudit.Json.Basic

/-!
# Writing JSON text

A value is written on one line without spaces, or spread over lines with two spaces for each level.
Quotes, backslashes and control characters of a text are escaped, by a letter where there is one.
-/
namespace StackAudit.Json

open StackAudit.Text

/-- How one character of a text is written. -/
def escapeChar (c : Char) : List Char :=
  if c = '"' then ['\\', '"']
  else if c = '\\' then ['\\', '\\']
  else if c = '\x08' then ['\\', 'b']
  else if c = '\x0c' then ['\\', 'f']
  else if c = '\n' then ['\\', 'n']
  else if c = '\r' then ['\\', 'r']
  else if c = '\t' then ['\\', 't']
  else if c.toNat < 0x20 then ['\\', 'u'] ++ hex4 c.toNat
  else [c]

/-- A text between quotes. -/
def quote (s : String) : List Char := '"' :: s.toList.flatMap escapeChar ++ ['"']

/-- Parts separated by a comma. -/
def commaSeparated : List (List Char) → List Char
  | [] => []
  | [p] => p
  | p :: q :: r => p ++ ',' :: commaSeparated (q :: r)

mutual

/-- The characters of a value on one line. -/
def compact : Json → List Char
  | .null => "null".toList
  | .bool b => (if b then "true" else "false").toList
  | .num n => n.text.toList
  | .str s => quote s
  | .arr items => '[' :: commaSeparated (compactItems items) ++ [']']
  | .obj fields => '{' :: commaSeparated (compactFields fields) ++ ['}']

/-- The items of a sequence on one line. -/
def compactItems : List Json → List (List Char)
  | [] => []
  | v :: r => compact v :: compactItems r

/-- The fields of a mapping on one line. -/
def compactFields : List (String × Json) → List (List Char)
  | [] => []
  | (k, v) :: r => (quote k ++ ':' :: compact v) :: compactFields r

end

/-- A new line at the given level. -/
def newLine (level : Nat) : List Char := '\n' :: List.replicate (2 * level) ' '

mutual

/-- The characters of a value spread over lines, from the given level on. -/
def spread (level : Nat) : Json → List Char
  | .arr [] => ['[', ']']
  | .arr (v :: r) =>
    '[' :: commaSeparated (spreadItems (level + 1) (v :: r)) ++ newLine level ++ [']']
  | .obj [] => ['{', '}']
  | .obj (e :: r) =>
    '{' :: commaSeparated (spreadFields (level + 1) (e :: r)) ++ newLine level ++ ['}']
  | v => compact v

/-- The items of a sequence, each on a line of its own. -/
def spreadItems (level : Nat) : List Json → List (List Char)
  | [] => []
  | v :: r => (newLine level ++ spread level v) :: spreadItems level r

/-- The fields of a mapping, each on a line of its own. -/
def spreadFields (level : Nat) : List (String × Json) → List (List Char)
  | [] => []
  | (k, v) :: r =>
    (newLine level ++ quote k ++ ':' :: ' ' :: spread level v) :: spreadFields level r

end

/-- The text of a value on one line. -/
def compactText (v : Json) : String := String.ofList v.compact

/-- The text of a value spread over lines. -/
def prettyText (v : Json) : String := String.ofList (v.spread 0)

end StackAudit.Json
