import StackAudit.Decimal.Shortest
import StackAudit.Text.Pieces

/-!
# Numbers of a document

A number is an integer that fits 64 bits, signed or unsigned, or else a finite double. A numeral
with a fraction or an exponent, and minus zero, denote doubles; so does an integer that does not
fit. A numeral beyond the greatest double denotes nothing.
-/
namespace StackAudit

/-- Whether an integer fits 64 bits, either signed or unsigned. -/
def FitsWord (n : Int) : Prop := -9223372036854775808 ≤ n ∧ n < 18446744073709551616

instance (n : Int) : Decidable (FitsWord n) := inferInstanceAs (Decidable (_ ∧ _))

/-- A number of a document. -/
inductive Number where
  /-- An integer that fits 64 bits. -/
  | int (n : Int) (fits : FitsWord n)
  /-- A finite double. -/
  | double (d : Double)
deriving DecidableEq

namespace Number

/-- The number of a natural number below `2 ^ 64`. -/
def ofNat (n : Nat) (h : n < 18446744073709551616) : Number := .int n ⟨by omega, by omega⟩

/-- The number of a 32-bit count. -/
def ofUInt32 (n : UInt32) : Number :=
  ofNat n.toNat (Nat.lt_of_lt_of_le n.toNat_lt (by decide))

/-- The integer as a number, or the nearest double if it does not fit. -/
def ofInt? (n : Int) : Option Number :=
  if h : FitsWord n then some (.int n h)
  else (Double.ofRatio? (n < 0) n.natAbs 1).map .double

/-- The text of a number: decimal digits for an integer, the shortest digits for a double. -/
def text : Number → String
  | .int n _ => toString n
  | .double d => Decimal.textOf d

/-- The natural number, if it is one. -/
def toNat? : Number → Option Nat
  | .int (.ofNat n) _ => some n
  | _ => none

/-- A numeral taken apart: sign, digits before and after the point, and exponent. -/
structure Numeral where
  /-- Whether a minus sign stands in front. -/
  negative : Bool
  /-- The digits before the point. -/
  whole : List Char
  /-- The digits after the point, if there is one. -/
  fraction : Option (List Char)
  /-- The exponent, if there is one. -/
  exponent : Option Int

/-- Takes apart a run of digits at the front. -/
def spanDigits (cs : List Char) : List Char × List Char :=
  (cs.takeWhile Char.isDigit, cs.dropWhile Char.isDigit)

/-- The digits read as a number; the empty run is zero. -/
def digitsValue (cs : List Char) : Nat :=
  cs.foldl (fun acc c => 10 * acc + (c.toNat - '0'.toNat)) 0

/-- An optional sign, and whether it is a minus. -/
def spanSign : List Char → Bool × List Char
  | '-' :: cs => (true, cs)
  | '+' :: cs => (false, cs)
  | cs => (false, cs)

/-- The exponent part at the front, if an exponent mark starts it. Nothing is left behind it. -/
def readExponent? : List Char → Option (Option Int)
  | [] => some none
  | c :: cs =>
    if c = 'e' ∨ c = 'E' then
      let (negative, rest) := spanSign cs
      let (ds, rest) := spanDigits rest
      if ds.isEmpty || !rest.isEmpty then none
      else some (some (if negative then -(digitsValue ds : Int) else digitsValue ds))
    else none

/-- Reads a whole numeral: no leading zeros, and digits on both sides of a point. -/
def Numeral.read? (cs : List Char) : Option Numeral := do
  let (negative, cs) := match cs with
    | '-' :: r => (true, r)
    | r => (false, r)
  let (whole, cs) := spanDigits cs
  if whole.isEmpty || (whole.head? == some '0' && whole.length != 1) then none
  match cs with
  | '.' :: r =>
    let (fraction, r) := spanDigits r
    if fraction.isEmpty then none
    return ⟨negative, whole, some fraction, ← readExponent? r⟩
  | r => return ⟨negative, whole, none, ← readExponent? r⟩

/-- The double of a numeral. -/
def Numeral.toDouble? (n : Numeral) : Option Double :=
  let fraction := n.fraction.getD []
  Double.ofDecimal? n.negative (digitsValue (n.whole ++ fraction))
    (n.exponent.getD 0 - fraction.length)

/-- The number that a numeral denotes. -/
def Numeral.value? (n : Numeral) : Option Number :=
  let i : Int := if n.negative then -(digitsValue n.whole : Int) else digitsValue n.whole
  if n.fraction.isNone && n.exponent.isNone && !(n.negative && i == 0) then
    if h : FitsWord i then some (.int i h) else n.toDouble?.map .double
  else n.toDouble?.map .double

/-- The number written by a numeral. -/
def read? (cs : List Char) : Option Number := do (← Numeral.read? cs).value?

end Number

end StackAudit
