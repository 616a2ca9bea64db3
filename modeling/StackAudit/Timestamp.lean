import StackAudit.Text.Pieces

/-!
# Timestamps

A date, a time of day and an offset from universal time, written as in `2024-05-01T12:00:00.5Z`. Any
single byte may stand between date and time. A sixtieth second is read only where a leap second can
be, at the last minute of a month in universal time, and counts as the last instant before it.
-/
namespace StackAudit

/-- Whether a year has a twenty-ninth of February. -/
def isLeapYear (y : Nat) : Bool := y % 4 == 0 && (y % 100 != 0 || y % 400 == 0)

/-- The number of days of a month. -/
def daysInMonth (y m : Nat) : Nat :=
  if m = 2 then (if isLeapYear y then 29 else 28)
  else if m = 4 ∨ m = 6 ∨ m = 9 ∨ m = 11 then 30
  else 31

/-- Whether the numbers name an instant; the offset is given in minutes. -/
def Timestamp.Valid (year month day hour minute second nanos : Nat) (offset : Int) : Prop :=
  year ≤ 9999 ∧ 1 ≤ month ∧ month ≤ 12 ∧ 1 ≤ day ∧ day ≤ daysInMonth year month ∧
    hour ≤ 23 ∧ minute ≤ 59 ∧ second ≤ 59 ∧ nanos < 1000000000 ∧ offset.natAbs < 24 * 60

instance (y mo d h mi s n : Nat) (o : Int) : Decidable (Timestamp.Valid y mo d h mi s n o) :=
  inferInstanceAs (Decidable (_ ∧ _ ∧ _ ∧ _ ∧ _ ∧ _ ∧ _ ∧ _ ∧ _ ∧ _))

/-- A date and time of day at an offset from universal time. -/
structure Timestamp where
  year : Nat
  month : Nat
  day : Nat
  hour : Nat
  minute : Nat
  second : Nat
  nanos : Nat
  /-- How many minutes the clock is ahead of universal time. -/
  offset : Int
  valid : Timestamp.Valid year month day hour minute second nanos offset
deriving DecidableEq

namespace Timestamp

/-- The first instant of 1970 in universal time. -/
def epoch : Timestamp := ⟨1970, 1, 1, 0, 0, 0, 0, 0, by decide⟩

instance : Inhabited Timestamp := ⟨epoch⟩

/-- A number with at least the given count of digits. -/
def padded (width n : Nat) : List Char :=
  let ds := Nat.toDigits 10 n
  List.replicate (width - ds.length) '0' ++ ds

/-- The fraction of a second, without zeros at the end. -/
def fractionChars (nanos : Nat) : List Char :=
  if nanos = 0 then [] else '.' :: ((padded 9 nanos).reverse.dropWhile (· == '0')).reverse

/-- The offset: `Z` for none, else a sign, hours and minutes. -/
def offsetChars (offset : Int) : List Char :=
  if offset = 0 then ['Z']
  else
    (if offset < 0 then '-' else '+') ::
      (padded 2 (offset.natAbs / 60) ++ ':' :: padded 2 (offset.natAbs % 60))

/-- The text of a timestamp. -/
def text (t : Timestamp) : String :=
  String.ofList (padded 4 t.year ++ '-' :: padded 2 t.month ++ '-' :: padded 2 t.day ++
    'T' :: padded 2 t.hour ++ ':' :: padded 2 t.minute ++ ':' :: padded 2 t.second ++
    fractionChars t.nanos ++ offsetChars t.offset)

/-- Reads exactly `n` digits. -/
def readDigits? (n : Nat) (cs : List Char) : Option (Nat × List Char) :=
  if n ≤ cs.length then do
    return (← Text.readDigits? (cs.take n), cs.drop n)
  else none

/-- Reads one given character. -/
def readMark? (c : Char) : List Char → Option (List Char)
  | x :: r => if x = c then some r else none
  | [] => none

/-- Reads a fraction of a second as nanoseconds; digits beyond the ninth do not count. -/
def readFraction? : List Char → Option (Nat × List Char)
  | '.' :: r => do
    let ds := r.takeWhile Char.isDigit
    let first := ds.take 9
    return ((← Text.readDigits? first) * Nat.pow 10 (9 - first.length), r.drop ds.length)
  | r => some (0, r)

/-- Reads an offset in minutes, to the end of the text. -/
def readOffset? : List Char → Option Int
  | ['Z'] => some 0
  | ['z'] => some 0
  | c :: r => do
    let sign : Int ← if c = '+' then some 1 else if c = '-' then some (-1) else none
    let (h, r) ← readDigits? 2 r
    let (m, r) ← readDigits? 2 (← readMark? ':' r)
    if h ≤ 23 ∧ m ≤ 59 ∧ r = [] then some (sign * (60 * h + m)) else none
  | [] => none

/-- Whether a leap second can follow the given minute, by universal time. -/
def atMonthEnd (year month day hour minute : Nat) (offset : Int) : Bool :=
  let m : Int := hour * 60 + minute - offset
  if m < 0 then m + 1440 == 1439 && day == 1
  else if m < 1440 then m == 1439 && day == daysInMonth year month
  else m - 1440 == 1439 && day + 1 == daysInMonth year month

/-- The timestamp of the given numbers, if they name one. -/
def ofParts? (year month day hour minute second nanos : Nat) (offset : Int) : Option Timestamp :=
  if h : Valid year month day hour minute second nanos offset then
    some ⟨year, month, day, hour, minute, second, nanos, offset, h⟩
  else if second = 60 ∧ atMonthEnd year month day hour minute offset then
    if h : Valid year month day hour minute 59 999999999 offset then
      some ⟨year, month, day, hour, minute, 59, 999999999, offset, h⟩
    else none
  else none

/-- Reads the characters of a timestamp. -/
def readChars? (cs : List Char) : Option Timestamp := do
  let (year, cs) ← readDigits? 4 cs
  let (month, cs) ← readDigits? 2 (← readMark? '-' cs)
  let (day, cs) ← readDigits? 2 (← readMark? '-' cs)
  let cs ← match cs with
    | c :: r => if c.toNat < 0x80 then some r else none
    | [] => none
  let (hour, cs) ← readDigits? 2 cs
  let (minute, cs) ← readDigits? 2 (← readMark? ':' cs)
  let (second, cs) ← readDigits? 2 (← readMark? ':' cs)
  let (nanos, cs) ← readFraction? cs
  ofParts? year month day hour minute second nanos (← readOffset? cs)

/-- The year, month and day that are the given number of days after 1970 began. Years are counted from
March here, so that the leap day is the last of its year. -/
def dateOfDays (days : Nat) : Nat × Nat × Nat :=
  let days := days + 719468
  let day := days % 146097
  let year := (day - day / 1460 + day / 36524 - day / 146096) / 365
  let day := day - (365 * year + year / 4 - year / 100)
  let month := (5 * day + 2) / 153
  let year := days / 146097 * 400 + year
  let date := day - (153 * month + 2) / 5 + 1
  if month < 10 then (year, month + 3, date) else (year + 1, month - 9, date)

/-- The instant that is the given time after 1970 began, in universal time. -/
def ofEpoch? (seconds nanos : Nat) : Option Timestamp :=
  let (year, month, day) := dateOfDays (seconds / 86400)
  let second := seconds % 86400
  ofParts? year month day (second / 3600) (second / 60 % 60) (second % 60) nanos 0

/-- Reads a timestamp. -/
def read? (s : String) : Option Timestamp := readChars? s.toList

end Timestamp

end StackAudit
