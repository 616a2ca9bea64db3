/-!
# Doubles, exactly

A finite double is a sign, a mantissa of at most 53 bits and a power of two, in the one normal form
that each value has. Rounding a quotient of natural numbers to the nearest double is exact integer
arithmetic; of two doubles equally near, the one with the even mantissa is taken.
-/
namespace StackAudit

namespace Decimal

/-- The integer nearest to `num / den`; of two equally near, the even one. -/
def roundDiv (num den : Nat) : Nat :=
  let k := num / den
  let r := num % den
  if 2 * r > den ∨ (2 * r = den ∧ k % 2 = 1) then k + 1 else k

end Decimal

/-- Whether the mantissa and exponent are the normal form of a finite double: the mantissa has its
top bit set unless the exponent is the least. -/
def Double.Fits (mantissa : Nat) (exponent : Int) : Prop :=
  mantissa < Nat.pow 2 53 ∧ -1074 ≤ exponent ∧ exponent ≤ 971 ∧
    (Nat.pow 2 52 ≤ mantissa ∨ exponent = -1074)

instance (m : Nat) (q : Int) : Decidable (Double.Fits m q) :=
  inferInstanceAs (Decidable (_ ∧ _ ∧ _ ∧ _))

/-- The finite double `± mantissa · 2 ^ exponent`. The sign of zero is kept. -/
structure Double where
  /-- Whether the sign is minus. -/
  negative : Bool
  /-- The mantissa. -/
  mantissa : Nat
  /-- The power of two. -/
  exponent : Int
  /-- Mantissa and exponent are in normal form. -/
  fits : Double.Fits mantissa exponent
deriving DecidableEq

namespace Double

/-- Zero with the given sign. -/
def zero (negative : Bool) : Double := ⟨negative, 0, -1074, by decide⟩

instance : Inhabited Double := ⟨zero false⟩

/-- The double with the given parts, if they are in normal form. -/
def ofParts? (negative : Bool) (m : Nat) (q : Int) : Option Double :=
  if h : Fits m q then some ⟨negative, m, q, h⟩ else none

/-- The quotient `num / (den · 2 ^ q)` as numerator and denominator. -/
def scale (num den : Nat) (q : Int) : Nat × Nat :=
  if 0 ≤ q then (num, den * Nat.pow 2 q.toNat) else (num * Nat.pow 2 (-q).toNat, den)

/-- The double nearest to `± num / den`, or `none` beyond the greatest one. -/
def ofRatio? (negative : Bool) (num den : Nat) : Option Double :=
  if num = 0 then some (zero negative)
  else
    -- the quotient lies between 2 ^ (e - 1) and 2 ^ (e + 1), so one of two exponents gives 53 bits
    let e : Int := (num.log2 : Int) - (den.log2 : Int)
    let (n, d) := scale num den (e - 53)
    let q := max (if Nat.pow 2 53 ≤ n / d then e - 52 else e - 53) (-1074)
    let (n, d) := scale num den q
    let m := Decimal.roundDiv n d
    if m = Nat.pow 2 53 then ofParts? negative (Nat.pow 2 52) (q + 1) else ofParts? negative m q

/-- The double nearest to `± digits · 10 ^ exponent`, or `none` beyond the greatest one. Exponents
far outside the range of doubles are decided by the number of digits alone. -/
def ofDecimal? (negative : Bool) (digits : Nat) (exponent : Int) : Option Double :=
  let places : Int := ((Nat.toDigits 10 digits).length : Int) + exponent
  if digits = 0 ∨ places < -400 then some (zero negative)
  else if 400 < places then none
  else if 0 ≤ exponent then ofRatio? negative (digits * Nat.pow 10 exponent.toNat) 1
  else ofRatio? negative digits (Nat.pow 10 (-exponent).toNat)

end Double

end StackAudit
