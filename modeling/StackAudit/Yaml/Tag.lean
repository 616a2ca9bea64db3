import StackAudit.KeyMap
import StackAudit.Text.Pieces
import StackAudit.Yaml.Token

/-!
# Tags and directives

A tag is written by a handle and a suffix, or in full between angle brackets. Escaped octets may make
it a text that is no Unicode, so tags are octets. What a handle means is declared by a directive.
-/
namespace StackAudit.Yaml

/-- Whether the character may stand in a tag. -/
def isTagChar (c : Char) : Bool := isNameChar c || ";/?:@&=+$.!~*'()".toList.contains c

/-- How many octets follow a leading octet of a character. -/
def octetsAfter? (n : Nat) : Option Nat :=
  if n < 0x80 then some 0
  else if n < 0xC0 then none
  else if n < 0xE0 then some 1
  else if n < 0xF0 then some 2
  else if n < 0xF8 then some 3
  else none

/-- How many octets are still to come behind an octet of which `left` were. -/
def octetsLeft? (left n : Nat) : Option Nat :=
  if left = 0 then octetsAfter? n
  else if 0x80 ≤ n ∧ n < 0xC0 then some (left - 1)
  else none

/-- Reads the octets of a tag, where `left` octets of an escaped character are still to come. Inside
of brackets commas and square brackets count too. -/
def readTagText? (bracketed : Bool) (left : Nat) : List Cell → Option (List UInt8 × List Cell)
  | a :: b :: c :: r =>
    if a.char == '%' then do
      let n := 16 * (← Text.hexValue? b.char) + (← Text.hexValue? c.char)
      let (octets, rest) ← readTagText? bracketed (← octetsLeft? left n) r
      return (n.toUInt8 :: octets, rest)
    else if left ≠ 0 then none
    else if isTagChar a.char || (bracketed && ",[]".toList.contains a.char) then
      (readTagText? bracketed 0 (b :: c :: r)).map fun (octets, rest) =>
        (a.char.toNat.toUInt8 :: octets, rest)
    else some ([], a :: b :: c :: r)
  | a :: r =>
    if a.char == '%' ∨ left ≠ 0 then none
    else if isTagChar a.char || (bracketed && ",[]".toList.contains a.char) then
      (readTagText? bracketed 0 r).map fun (octets, rest) =>
        (a.char.toNat.toUInt8 :: octets, rest)
    else some ([], a :: r)
  | [] => if left = 0 then some ([], []) else none

/-- The octets of a text. -/
def octets (s : String) : List UInt8 := s.toUTF8.toList

/-- The name of a handle behind its first mark, with the mark that ends it, if there is one. -/
def spanHandle (cs : List Cell) : String × List Cell :=
  let (name, rest) := spanName cs
  match rest with
  | c :: r => if c.char == '!' then ("!" ++ name ++ "!", r) else ("!" ++ name, rest)
  | [] => ("!" ++ name, [])

/-- Whether a tag may end here. -/
def endsTag (flow : Bool) (cs : List Cell) : Bool :=
  Cell.endWord cs || (flow && (cs.head?.map Cell.char) == some ',')

/-- Reads a tag in full behind its angle bracket. -/
def readBracketedTag? (cs : List Cell) : Option (Token × List Cell) := do
  let (suffix, rest) ← readTagText? true 0 cs
  match rest with
  | c :: r => if c.char == '>' && !suffix.isEmpty then some (.tag "" suffix, r) else none
  | [] => none

/-- Reads a tag by its handle behind its mark. Without a mark behind it, the name of a handle is the
start of a suffix to the handle of one mark; a single mark is a tag of its own. -/
def readShortTag? (cs : List Cell) : Option (Token × List Cell) := do
  let (handle, rest) := spanHandle cs
  let (suffix, rest) ← readTagText? false 0 rest
  if 2 ≤ handle.length ∧ handle.back = '!' then
    if suffix.isEmpty then none else some (.tag handle suffix, rest)
  else
    let suffix := octets (String.ofList (handle.toList.drop 1)) ++ suffix
    some (if suffix.isEmpty then .tag "" (octets "!") else .tag "!" suffix, rest)

/-- Reads a tag behind its mark. -/
def readTag? (flow : Bool) (cs : List Cell) : Option (Token × List Cell) := do
  let bracketed := (cs.head?.map Cell.char) == some '<'
  let (tag, rest) ← if bracketed then readBracketedTag? cs.tail else readShortTag? cs
  if endsTag flow rest then some (tag, rest) else none

/-- A number of at most nine digits, and what follows. -/
def spanVersion? (cs : List Cell) : Option (Nat × List Cell) := do
  let digits := cs.takeWhile (·.char.isDigit)
  if 9 < digits.length then none
  else return (← Text.readDigits? (digits.map Cell.char), cs.dropWhile (·.char.isDigit))

/-- Reads the version of a directive. -/
def readVersion? (cs : List Cell) : Option (Token × List Cell) := do
  let (major, rest) ← spanVersion? (skipWhite cs)
  match rest with
  | c :: r =>
    if c.char != '.' then none
    else
      let (minor, rest) ← spanVersion? r
      return (.version major minor, rest)
  | [] => none

/-- Reads a declared handle and its meaning. -/
def readHandle? (cs : List Cell) : Option (Token × List Cell) := do
  match skipWhite cs with
  | c :: r =>
    if c.char != '!' then none
    else
      let (handle, rest) := spanHandle r
      let closed := handle = "!" || (2 ≤ handle.length && handle.back == '!')
      let spaced := (rest.head?.map (isWhite ·.char)).getD false
      let (meaning, rest) ← readTagText? true 0 (skipWhite rest)
      if closed && spaced && !meaning.isEmpty && Cell.endWord rest then
        some (.handle handle meaning, rest)
      else none
  | [] => none

/-- Reads a directive behind its mark, up to the end of its line. -/
def readDirective? (cs : List Cell) : Option (Token × List Cell) := do
  let (name, rest) := spanName cs
  if !Cell.endWord rest then none
  let (token, rest) ←
    if name = "YAML" then readVersion? rest
    else if name = "TAG" then readHandle? rest
    else none
  return (token, ← finishLine? rest)

/-- What a tag means for the value behind it. -/
inductive Tag where
  /-- There is none, or none that says anything. -/
  | absent
  | boolean
  | integer
  | float
  | null
  /-- A tag of the application, which values may not have. -/
  | custom
  /-- Any other tag: a scalar is a text. -/
  | other
deriving DecidableEq

namespace Tag

/-- The meaning of a tag in full. A tag of the application that is no Unicode says nothing. -/
def ofOctets (tag : List UInt8) : Tag :=
  if tag = octets "tag:yaml.org,2002:bool" then .boolean
  else if tag = octets "tag:yaml.org,2002:int" then .integer
  else if tag = octets "tag:yaml.org,2002:float" then .float
  else if tag = octets "tag:yaml.org,2002:null" then .null
  else match tag with
    | 33 :: _ => if (String.fromUTF8? ⟨tag.toArray⟩).isSome then .custom else .absent
    | _ => .other

end Tag

/-- The meanings of handles. -/
abbrev Handles := KeyMap (List UInt8)

namespace Handles

/-- The handles that need no declaration. -/
def standard : List (String × List UInt8) :=
  [("!", octets "!"), ("!!", octets "tag:yaml.org,2002:")]

/-- The declared handles together with the standard ones that are not declared anew. -/
def complete (declared : Handles) : Handles :=
  standard.foldl (fun m e => if m.contains e.1 then m else m.insert e.1 e.2) declared

/-- The tag that a handle and a suffix stand for. -/
def resolve? (handles : Handles) (handle : String) (suffix : List UInt8) : Option (List UInt8) :=
  if handle = "" then some suffix else (handles.get? handle).map (· ++ suffix)

end Handles

end StackAudit.Yaml
