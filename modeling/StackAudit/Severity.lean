/-!
# Severities

The four severities in ascending order, and how many findings there are of each.
-/
namespace StackAudit

/-- How bad a finding is. -/
inductive Severity where
  /-- The least severity. -/
  | low
  /-- Above low. -/
  | medium
  /-- Above medium. -/
  | high
  /-- The greatest severity. -/
  | critical
deriving DecidableEq, Inhabited

namespace Severity

/-- The place of a severity in the order, from zero. -/
def rank : Severity → Nat
  | low => 0
  | medium => 1
  | high => 2
  | critical => 3

instance : LE Severity := ⟨fun a b => a.rank ≤ b.rank⟩

instance : LT Severity := ⟨fun a b => a.rank < b.rank⟩

instance (a b : Severity) : Decidable (a ≤ b) := inferInstanceAs (Decidable (a.rank ≤ b.rank))

instance (a b : Severity) : Decidable (a < b) := inferInstanceAs (Decidable (a.rank < b.rank))

instance : Max Severity := ⟨fun a b => if a ≤ b then b else a⟩

/-- All severities, the greatest first. -/
def all : List Severity := [critical, high, medium, low]

/-- The name of a severity. -/
def name : Severity → String
  | low => "low"
  | medium => "medium"
  | high => "high"
  | critical => "critical"

/-- The severity of a name. -/
def ofName? (s : String) : Option Severity := all.find? fun v => v.name = s

theorem rank_injective {a b : Severity} (h : a.rank = b.rank) : a = b := by
  cases a <;> cases b <;> first | rfl | (exact absurd h (by decide))

theorem le_iff_rank {a b : Severity} : a ≤ b ↔ a.rank ≤ b.rank := Iff.rfl

theorem mem_all (s : Severity) : s ∈ all := by cases s <;> decide

@[simp] theorem ofName?_name (s : Severity) : ofName? s.name = some s := by
  cases s <;> decide

end Severity

/-- How many findings there are of each severity. -/
structure SeverityCounts where
  /-- The number of critical findings. -/
  critical : UInt32 := 0
  /-- The number of high findings. -/
  high : UInt32 := 0
  /-- The number of medium findings. -/
  medium : UInt32 := 0
  /-- The number of low findings. -/
  low : UInt32 := 0
deriving DecidableEq, Inhabited

namespace SeverityCounts

/-- The number of findings of a severity. -/
def get (c : SeverityCounts) : Severity → UInt32
  | .critical => c.critical
  | .high => c.high
  | .medium => c.medium
  | .low => c.low

/-- Counts one more finding. -/
def bump (c : SeverityCounts) : Severity → SeverityCounts
  | .critical => { c with critical := c.critical + 1 }
  | .high => { c with high := c.high + 1 }
  | .medium => { c with medium := c.medium + 1 }
  | .low => { c with low := c.low + 1 }

/-- The sum of counts. -/
def sum (l : List UInt32) : UInt32 := l.foldr (· + ·) 0

/-- The number of findings of at least the given severity. -/
def atOrAbove (c : SeverityCounts) (threshold : Severity) : UInt32 :=
  sum ((Severity.all.filter (threshold ≤ ·)).map c.get)

@[simp] theorem get_bump_self (c : SeverityCounts) (s : Severity) :
    (c.bump s).get s = c.get s + 1 := by cases s <;> rfl

theorem get_bump_of_ne (c : SeverityCounts) {s t : Severity} (h : s ≠ t) :
    (c.bump s).get t = c.get t := by
  cases s <;> cases t <;> first | rfl | exact absurd rfl h

end SeverityCounts

end StackAudit
