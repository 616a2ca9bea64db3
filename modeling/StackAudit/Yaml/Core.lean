import StackAudit.Json.Basic
import StackAudit.Yaml.Tag

/-!
# Scalars as values

A plain scalar without a tag is `null`, a truth value, an integer, a double or else a text, by how it
is written. An integer may have a sign and a base; with a needless zero in front, decimal digits are
a text. A tag demands one of these kinds.
-/
namespace StackAudit.Yaml.Core

def isNull (s : String) : Bool := ["~", "null", "Null", "NULL"].contains s

def bool? (s : String) : Option Bool :=
  if ["true", "True", "TRUE"].contains s then some true
  else if ["false", "False", "FALSE"].contains s then some false
  else none

/-- The value of a nonempty list of digits of the base. -/
def digits? (base : Nat) : List Char → Option Nat
  | [] => none
  | cs => cs.foldlM (fun n c => (Text.hexValue? c).bind fun d =>
      if d < base then some (base * n + d) else none) 0

/-- The base that the mark at the front stands for, and the digits behind it. -/
def spanBase : List Char → Nat × List Char
  | '0' :: 'x' :: r => (16, r)
  | '0' :: 'o' :: r => (8, r)
  | '0' :: 'b' :: r => (2, r)
  | cs => (10, cs)

/-- Whether there are decimal digits alone, with a needless zero in front. -/
def isPadded : List Char → Bool
  | '0' :: c :: r => (c :: r).all Char.isDigit
  | _ => false

/-- The characters behind a sign, and whether it is a minus. -/
def spanSign : List Char → Bool × List Char
  | '-' :: r => (true, r)
  | '+' :: r => (false, r)
  | cs => (false, cs)

/-- The integer that is written. -/
def integer? (cs : List Char) : Option Int :=
  let (negative, body) := spanSign cs
  if isPadded body then none
  else
    let (base, digits) := spanBase body
    (digits? base digits).map fun n => if negative then -(n : Int) else n

/-- The exponent behind its letter, or zero where there is none. Nothing may follow it. -/
def exponent? : List Char → Option Int
  | [] => some 0
  | c :: r =>
    if c = 'e' ∨ c = 'E' then
      let (negative, digits) := spanSign r
      (Text.readDigits? digits).map fun n => if negative then -(n : Int) else n
    else none

/-- The double that is written with decimal digits: on one side of a point at least. -/
def decimal? (cs : List Char) : Option Double := do
  let (negative, body) := spanSign cs
  let whole := body.takeWhile Char.isDigit
  let rest := body.dropWhile Char.isDigit
  let (fraction, rest) := match rest with
    | '.' :: r => (r.takeWhile Char.isDigit, r.dropWhile Char.isDigit)
    | r => ([], r)
  let digits ← Text.readDigits? (whole ++ fraction)
  Double.ofDecimal? negative digits ((← exponent? rest) - fraction.length)

/-- Whether an infinity or no number at all is written. -/
def isNonFinite (s : String) : Bool :=
  [".inf", ".Inf", ".INF", "+.inf", "+.Inf", "+.INF", "-.inf", "-.Inf", "-.INF", ".nan", ".NaN",
    ".NAN"].contains s

/-- The double that is written; what is not finite is `null`. -/
def float? (s : String) : Option Json :=
  if isNonFinite s then some .null else (decimal? s.toList).map fun d => .num (.double d)

/-- Whether an integer fits 128 bits, either signed or unsigned. -/
def fitsDoubleWord (n : Int) : Bool := -(Nat.pow 2 127 : Nat) ≤ n && n < (Nat.pow 2 128 : Nat)

/-- The value of an integer. Beyond 64 bits there is none. -/
def ofInteger? (n : Int) : Option Json :=
  if h : FitsWord n then some (.num (.int n h)) else none

/-- The value of a plain scalar without a tag. An integer beyond 128 bits counts as a double. -/
def plain? (s : String) : Option Json :=
  if s = "" || isNull s then some .null
  else match bool? s with
    | some b => some (.bool b)
    | none => match (integer? s.toList).filter fitsDoubleWord with
      | some n => ofInteger? n
      | none =>
        if isPadded (spanSign s.toList).2 then some (.str s)
        else some ((float? s).getD (.str s))

/-- The value of a scalar. -/
def scalar? (tag : Tag) (text : String) (plain : Bool) : Option Json :=
  match tag with
  | .absent => if plain then plain? text else some (.str text)
  | .boolean => (bool? text).map .bool
  | .integer => (integer? text.toList).bind ofInteger?
  | .float => float? text
  | .null => if isNull text then some .null else none
  | .custom => none
  | .other => some (.str text)

end StackAudit.Yaml.Core
