import Mathlib.Data.List.TakeWhile
import StackAudit.Json.Number
import StackAudit.Proofs.Text.Digits

/-!
# Integers that are read back

The decimal text of an integer that fits a machine word denotes that integer.
-/
namespace StackAudit.Number

/-- The sign in front of the digits of an integer. -/
def signChars (n : Int) : List Char := if n < 0 then ['-'] else []

theorem toList_text_int (n : Int) (h : FitsWord n) :
    (Number.int n h).text.toList = signChars n ++ Nat.toDigits 10 n.natAbs := by
  cases n with
  | ofNat k =>
    change (Nat.repr k).toList = _
    simp [Nat.repr_eq_ofList_toDigits, signChars]
  | negSucc k =>
    change ("-" ++ Nat.repr (k + 1)).toList = _
    simp [Nat.repr_eq_ofList_toDigits, signChars, Int.negSucc_lt_zero]

/-- An integer is written with a sign and digits only. -/
theorem mem_text_int {n : Int} {h : FitsWord n} {c : Char}
    (hc : c ∈ (Number.int n h).text.toList) : c = '-' ∨ c.isDigit = true := by
  rw [toList_text_int] at hc
  rcases List.mem_append.1 hc with hc | hc
  · unfold signChars at hc
    split at hc
    · exact .inl (List.mem_singleton.1 hc)
    · cases hc
  · exact .inr (Text.isDigit_of_mem_toDigits hc)

theorem digitsValue_toDigits (n : Nat) : digitsValue (Nat.toDigits 10 n) = n := by
  rw [digitsValue, ← Nat.ofDigitChars_eq_foldl, Nat.ofDigitChars_ten_toDigits]

theorem spanDigits_toDigits (n : Nat) :
    spanDigits (Nat.toDigits 10 n) = (Nat.toDigits 10 n, []) := by
  have hdigits : ∀ c ∈ Nat.toDigits 10 n, c.isDigit = true := fun _ => Text.isDigit_of_mem_toDigits
  rw [spanDigits, List.takeWhile_eq_self_iff.2 hdigits, List.dropWhile_eq_nil_iff.2 hdigits]

/-- No zero stands in front of the other digits of a number. -/
theorem zero_first_toDigits (n : Nat) : ((Nat.toDigits 10 n).isEmpty ||
    ((Nat.toDigits 10 n).head? == some '0' && (Nat.toDigits 10 n).length != 1)) = false := by
  have hne : (Nat.toDigits 10 n).isEmpty = false := by simp
  rw [hne, Bool.false_or]
  rcases Nat.eq_zero_or_pos n with rfl | hpos
  · rfl
  · simp [Text.head?_toDigits_ne_zero hpos]

/-- A sign and digits are a numeral without fraction and exponent. -/
theorem read?_signChars_append (n : Int) :
    Numeral.read? (signChars n ++ Nat.toDigits 10 n.natAbs) =
      some ⟨n < 0, Nat.toDigits 10 n.natAbs, none, none⟩ := by
  have hspan := spanDigits_toDigits n.natAbs
  have hzero := zero_first_toDigits n.natAbs
  unfold Numeral.read?
  by_cases hn : n < 0
  · simp [signChars, hn, hspan, hzero, readExponent?]
  · rw [signChars, if_neg hn, List.nil_append]
    split
    · rename_i negative cs hsign
      split at hsign
      · -- a digit is no sign
        rename_i r hr
        have hminus : '-' ∈ Nat.toDigits 10 n.natAbs := hr ▸ List.mem_cons_self
        exact absurd (Text.isDigit_of_mem_toDigits hminus) (by decide)
      · cases hsign
        simp [hn, hspan, hzero, readExponent?]

/-- The text of an integer denotes the integer. -/
theorem read?_text_int (n : Int) (h : FitsWord n) :
    read? (Number.int n h).text.toList = some (.int n h) := by
  have hsigned : (if n < 0 then -(n.natAbs : Int) else n.natAbs) = n := by
    split <;> omega
  rw [toList_text_int, read?, read?_signChars_append]
  simp only [Option.bind_eq_bind, Option.bind_some, Numeral.value?, digitsValue_toDigits,
    decide_eq_true_eq, hsigned, Option.isNone_none, Bool.true_and]
  by_cases hzero : n = 0
  · subst hzero
    rfl
  · simp [hzero, h]

end StackAudit.Number
