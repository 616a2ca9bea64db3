import StackAudit.Text.Pieces

/-!
# Lines of text

Putting text together from lines, and laying it out in columns.
-/
namespace StackAudit.Text

/-- The text of lines, each ended by a line feed. -/
def endLines (lines : List String) : String := String.join (lines.map (· ++ "\n"))

/-- Fills a text up with spaces at its end. -/
def padEnd (width : Nat) (s : String) : String :=
  s ++ String.ofList (List.replicate (width - s.length) ' ')

/-- A line behind spaces; an empty one stays empty. -/
def indent (width : Nat) (line : String) : String :=
  if line = "" then "" else String.ofList (List.replicate width ' ') ++ line

/-- The lines of a text, indented. -/
def indentLines (width : Nat) (s : String) : List String := (pieces '\n' s).map (indent width)

/-- Upper-cases the letters of the English alphabet and keeps all else. -/
def asciiUpper (s : String) : String := String.ofList (s.toList.map Char.toUpper)

end StackAudit.Text
