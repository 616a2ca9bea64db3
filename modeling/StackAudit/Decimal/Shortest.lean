import StackAudit.Decimal.Double

/-!
# The shortest digits of a double

The numbers that round to a double form an interval around it. The shortest decimal of a double is
the point of the coarsest decimal grid that lies in the interval, and of two such points the nearer
one. On a given grid only the two neighbours of the double can qualify.
-/
namespace StackAudit.Decimal

/-- Significant digits and the place of the decimal point: `0.d₁d₂… · 10 ^ point`. -/
structure Digits where
  /-- The significant digits, without zeros at the end. -/
  digits : List Char
  /-- The place of the point, counted from before the first digit. -/
  point : Int
deriving DecidableEq

/-- A positive double with the interval that rounds to it, over one common denominator. -/
structure Interval where
  /-- Four times the mantissa, scaled. -/
  middle : Nat
  /-- The lower end. -/
  low : Nat
  /-- The upper end. -/
  high : Nat
  /-- The common denominator. -/
  den : Nat
  /-- Whether the ends themselves round to the double. -/
  closed : Bool

/-- The interval of the numbers that round to `m · 2 ^ q`. It reaches half as far down where the
doubles below lie twice as close. -/
def Interval.ofParts (m : Nat) (q : Int) : Interval :=
  let up := Nat.pow 2 (q - 2).toNat
  let below := if m = Nat.pow 2 52 ∧ -1074 < q then 1 else 2
  { middle := 4 * m * up
    low := (4 * m - below) * up
    high := (4 * m + 2) * up
    den := Nat.pow 2 (2 - q).toNat
    closed := m % 2 = 0 }

/-- The neighbour of the double on the grid of the multiples of `10 ^ k` that rounds to it. -/
def Interval.onGrid? (i : Interval) (k : Int) : Option Nat :=
  let unit := i.den * Nat.pow 10 k.toNat
  let grow := Nat.pow 10 (-k).toNat
  let inside (c : Nat) : Bool :=
    if i.closed then i.low * grow ≤ c * unit && c * unit ≤ i.high * grow
    else i.low * grow < c * unit && c * unit < i.high * grow
  let c := i.middle * grow / unit
  let r := i.middle * grow % unit
  let upIsNearer : Bool := decide (2 * r > unit) || (decide (2 * r = unit) && c % 2 == 1)
  if inside c && inside (c + 1) then some (if upIsNearer then c + 1 else c)
  else if inside c then some c
  else if inside (c + 1) then some (c + 1)
  else none

/-- The least `p` with `num / den < 10 ^ p`, found by stepping up from below. -/
def leastPower (num den : Nat) : Nat → Int → Int
  | 0, p => p
  | fuel + 1, p =>
    if num * Nat.pow 10 (-p).toNat < den * Nat.pow 10 p.toNat then p
    else leastPower num den fuel (p + 1)

/-- The digits of `c`, a multiple count on the grid of `10 ^ k`, without zeros at the end. -/
def Digits.ofGrid (c : Nat) (k : Int) : Digits :=
  let cs := Nat.toDigits 10 c
  { digits := (cs.reverse.dropWhile (· == '0')).reverse
    point := k + cs.length }

/-- The shortest digits of a double that is not zero; seventeen always suffice. -/
def shortest (d : Double) : Digits :=
  let i := Interval.ofParts d.mantissa d.exponent
  let start : Int := ((d.mantissa.log2 : Int) + d.exponent) * 30103 / 100000 - 1
  let p := leastPower i.middle i.den 8 start
  let hit := (List.range 17).findSome? fun (n : Nat) =>
    let k : Int := p - 1 - n
    (i.onGrid? k).map fun c => Digits.ofGrid c k
  hit.getD ⟨[], 0⟩

/-- How a double is laid out. -/
structure Layout where
  /-- The least place of the point written without an exponent. -/
  least : Int
  /-- The greatest place of the point written without an exponent. -/
  greatest : Int

/-- Lays out digits: positional while the point stays near, else one digit before the point and a
signed exponent. An integral value ends in `.0` when it is written positionally. -/
def Layout.write (l : Layout) (d : Digits) : List Char :=
  let n : Int := d.digits.length
  if l.least ≤ d.point ∧ d.point ≤ l.greatest then
    if d.point ≤ 0 then ['0', '.'] ++ List.replicate (-d.point).toNat '0' ++ d.digits
    else if n ≤ d.point then d.digits ++ List.replicate (d.point - n).toNat '0' ++ ['.', '0']
    else d.digits.take d.point.toNat ++ ['.'] ++ d.digits.drop d.point.toNat
  else
    let e := d.point - 1
    let mantissa := match d.digits with
      | [] => ['0']
      | [c] => [c]
      | c :: cs => c :: '.' :: cs
    mantissa ++ ['e', if e < 0 then '-' else '+'] ++ Nat.toDigits 10 e.natAbs

/-- Positional from one hundred-thousandth up to sixteen digits before the point. -/
def plainLayout : Layout := ⟨-4, 16⟩

/-- The text of a double: the fewest digits that read back. -/
def textOf (d : Double) : String :=
  let sign := if d.negative then ['-'] else []
  let body := if d.mantissa = 0 then ['0', '.', '0'] else plainLayout.write (shortest d)
  String.ofList (sign ++ body)

end StackAudit.Decimal
