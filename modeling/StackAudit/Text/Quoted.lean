import StackAudit.Text.Hidden
import StackAudit.Text.Pieces

/-!
# Quoted text

A quoted text stands between double quotes. A quote and a backslash are escaped by a backslash, as
are NUL, tab, line feed and carriage return by a letter; other characters without a glyph are
written by number, and all else stands for itself.
-/
namespace StackAudit.Text.Quoted

/-- The hexadecimal digits of a number, without leading zeros. -/
def hexDigits (n : Nat) : List Char := Nat.toDigits 16 n

/-- How one character is written between quotes. -/
def encodeChar (c : Char) : List Char :=
  if c = '"' then ['\\', '"']
  else if c = '\\' then ['\\', '\\']
  else if c = '\x00' then ['\\', '0']
  else if c = '\t' then ['\\', 't']
  else if c = '\n' then ['\\', 'n']
  else if c = '\r' then ['\\', 'r']
  else if isHidden c then ['\\', 'u', '{'] ++ hexDigits c.toNat ++ ['}']
  else [c]

/-- The text between double quotes. -/
def encode (s : String) : String :=
  String.ofList (['"'] ++ s.toList.flatMap encodeChar ++ ['"'])

/-- Quoted texts between brackets, separated by commas. -/
def encodeList (l : List String) : String :=
  "[" ++ ", ".intercalate (l.map encode) ++ "]"

end StackAudit.Text.Quoted
