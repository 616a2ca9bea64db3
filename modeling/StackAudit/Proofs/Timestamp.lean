import Mathlib.Algebra.GroupWithZero.Nat
import Mathlib.Data.List.TakeWhile
import StackAudit.Proofs.Text.Digits
import StackAudit.Timestamp

/-!
# Timestamps that are read back

Every part of a timestamp is written so that reading it takes just the characters that were written
for it: numbers by their width, a fraction up to the first character that is no digit. The zeros
that are left out at the end of a fraction do not change it.
-/
namespace StackAudit.Timestamp

/-! ### Numbers of a fixed width -/

theorem length_padded {width n : Nat} (hwidth : 0 < width) (h : n < 10 ^ width) :
    (padded width n).length = width := by
  have hlength : (Nat.toDigits 10 n).length ≤ width :=
    (Nat.length_toDigits_le_iff (by decide) hwidth).2 h
  rw [padded, List.length_append, List.length_replicate]
  omega

theorem isDigit_of_mem_padded {width n : Nat} {c : Char} (h : c ∈ padded width n) :
    c.isDigit = true := by
  rcases List.mem_append.1 h with h | h
  · rw [List.eq_of_mem_replicate h]
    rfl
  · exact Text.isDigit_of_mem_toDigits h

theorem ofDigitChars_padded (width n : Nat) : Nat.ofDigitChars 10 (padded width n) 0 = n := by
  rw [padded, Nat.ofDigitChars_append, Nat.ofDigitChars_replicate_zero, Nat.mul_zero,
    Nat.ofDigitChars_ten_toDigits]

theorem readDigits?_padded {width n : Nat} (hwidth : 0 < width) (h : n < 10 ^ width)
    (rest : List Char) : readDigits? width (padded width n ++ rest) = some (n, rest) := by
  have hlength := length_padded hwidth h
  have hne : padded width n ≠ [] := by
    intro hnil
    rw [hnil] at hlength
    simp only [List.length_nil] at hlength
    omega
  have hread := Text.readDigits?_of_isDigit hne fun _ => isDigit_of_mem_padded
  rw [ofDigitChars_padded] at hread
  have hle : width ≤ (padded width n ++ rest).length := by
    rw [List.length_append]
    omega
  rw [readDigits?, if_pos hle, List.take_left' hlength, List.drop_left' hlength, hread]
  rfl

/-! ### The fraction of a second -/

/-- The digits of a fraction, without the zeros at the end. -/
def fractionDigits (nanos : Nat) : List Char :=
  ((padded 9 nanos).reverse.dropWhile (· == '0')).reverse

theorem exists_padded_eq (nanos : Nat) :
    ∃ k, padded 9 nanos = fractionDigits nanos ++ List.replicate k '0' := by
  let zeros := (padded 9 nanos).reverse.takeWhile (· == '0')
  have hzeros : zeros = List.replicate zeros.length '0' := by
    rw [List.eq_replicate_iff]
    refine ⟨rfl, fun c hc => ?_⟩
    simpa using List.mem_takeWhile_imp hc
  refine ⟨zeros.length, ?_⟩
  have hsplit : zeros ++ (fractionDigits nanos).reverse = (padded 9 nanos).reverse := by
    rw [fractionDigits, List.reverse_reverse]
    exact List.takeWhile_append_dropWhile
  rw [← List.reverse_inj, ← hsplit, List.reverse_append, List.reverse_replicate, ← hzeros]

/-- The zeros that are left out stand for the power of ten by which a short fraction is raised. -/
theorem fractionDigits_spec {nanos : Nat} (hpos : 0 < nanos) (h : nanos < 1000000000) :
    fractionDigits nanos ≠ [] ∧ (fractionDigits nanos).length ≤ 9 ∧
      (∀ c ∈ fractionDigits nanos, c.isDigit = true) ∧
      Nat.ofDigitChars 10 (fractionDigits nanos) 0 * 10 ^ (9 - (fractionDigits nanos).length) =
        nanos := by
  obtain ⟨k, hk⟩ := exists_padded_eq nanos
  have hlength : (fractionDigits nanos).length + k = 9 := by
    have := length_padded (n := nanos) (by decide : 0 < 9) (by omega)
    simpa [hk] using this
  have hvalue : 10 ^ k * Nat.ofDigitChars 10 (fractionDigits nanos) 0 = nanos := by
    rw [← Nat.ofDigitChars_replicate_zero, ← Nat.ofDigitChars_append, ← hk, ofDigitChars_padded]
  refine ⟨fun hnil => ?_, by omega, fun c hc => ?_, ?_⟩
  · rw [hnil, Nat.ofDigitChars_nil] at hvalue
    omega
  · exact isDigit_of_mem_padded (hk ▸ List.mem_append_left _ hc)
  · rw [show 9 - (fractionDigits nanos).length = k by omega, Nat.mul_comm, hvalue]

/-- A fraction is read up to what follows, if that is neither a digit nor a point. -/
theorem readFraction?_fractionChars {nanos : Nat} (h : nanos < 1000000000) {rest : List Char}
    (hpoint : rest.head? ≠ some '.') (hdigit : ∀ c ∈ rest.head?, c.isDigit = false) :
    readFraction? (fractionChars nanos ++ rest) = some (nanos, rest) := by
  rcases Nat.eq_zero_or_pos nanos with rfl | hpos
  · rw [fractionChars, if_pos rfl, List.nil_append]
    unfold readFraction?
    split
    · exact absurd rfl hpoint
    · rfl
  · obtain ⟨hne, hle, hall, hvalue⟩ := fractionDigits_spec hpos h
    have htake : (fractionDigits nanos ++ rest).takeWhile Char.isDigit = fractionDigits nanos := by
      rw [List.takeWhile_append_of_pos hall]
      cases rest with
      | nil => simp
      | cons c rest => simp [hdigit c rfl]
    have hread := Text.readDigits?_of_isDigit hne hall
    rw [fractionChars, if_neg (Nat.ne_of_gt hpos)]
    change readFraction? ('.' :: (fractionDigits nanos ++ rest)) = _
    simp only [readFraction?, htake, List.take_of_length_le hle, hread, List.drop_left,
      Option.bind_eq_bind, Option.bind_some]
    exact congrArg (fun n => some (n, rest)) hvalue

/-! ### The offset -/

theorem readMark?_cons (c : Char) (r : List Char) : readMark? c (c :: r) = some r := if_pos rfl

/-- The hours and minutes of an offset are read with its sign. -/
theorem readOffset?_hours {sign : Char} {unit : Int}
    (hsign : sign = '+' ∧ unit = 1 ∨ sign = '-' ∧ unit = -1) {minutes : Nat}
    (h : minutes < 24 * 60) :
    readOffset? (sign :: (padded 2 (minutes / 60) ++ ':' :: padded 2 (minutes % 60))) =
      some (unit * minutes) := by
  have hhours := @readDigits?_padded 2 (minutes / 60) (by decide) (by omega)
  have hminutes := @readDigits?_padded 2 (minutes % 60) (by decide) (by omega) []
  rw [List.append_nil] at hminutes
  have hvalue : 60 * ((minutes : Int) / 60) + (minutes : Int) % 60 = minutes := by omega
  have hbounds : minutes / 60 ≤ 23 ∧ minutes % 60 ≤ 59 := by omega
  rcases hsign with ⟨rfl, rfl⟩ | ⟨rfl, rfl⟩ <;>
    simp [readOffset?, hhours, readMark?_cons, hminutes, hbounds, hvalue]

/-- The offset of a timestamp is read back. -/
theorem readOffset?_offsetChars {offset : Int} (h : offset.natAbs < 24 * 60) :
    readOffset? (offsetChars offset) = some offset := by
  unfold offsetChars
  split_ifs with hzero hnegative
  · rw [hzero]
    rfl
  · rw [readOffset?_hours (.inr ⟨rfl, rfl⟩) h]
    congr 1
    omega
  · rw [readOffset?_hours (.inl ⟨rfl, rfl⟩) h]
    congr 1
    omega

/-- An offset does not carry on a fraction. -/
theorem head?_offsetChars (offset : Int) :
    (offsetChars offset).head? ≠ some '.' ∧
      ∀ c ∈ (offsetChars offset).head?, c.isDigit = false := by
  unfold offsetChars
  split_ifs <;> simp

/-! ### The whole timestamp -/

theorem ofParts?_self (t : Timestamp) :
    ofParts? t.year t.month t.day t.hour t.minute t.second t.nanos t.offset = some t := by
  rw [ofParts?, dif_pos t.valid]

theorem daysInMonth_le (year month : Nat) : daysInMonth year month ≤ 31 := by
  unfold daysInMonth
  split_ifs <;> decide

/-- The text of a timestamp is read back. -/
theorem read?_text (t : Timestamp) : read? t.text = some t := by
  obtain ⟨hyear, hmonth, hmonth', hday, hday', hhour, hminute, hsecond, hnanos, hoffset⟩ := t.valid
  have hdays := daysInMonth_le t.year t.month
  have htwo (n : Nat) (hn : n < 100) (rest : List Char) :
      readDigits? 2 (padded 2 n ++ rest) = some (n, rest) :=
    readDigits?_padded (by decide) hn rest
  have hfour (rest : List Char) : readDigits? 4 (padded 4 t.year ++ rest) = some (t.year, rest) :=
    readDigits?_padded (by decide) (by omega) rest
  obtain ⟨hpoint, hdigit⟩ := head?_offsetChars t.offset
  rw [read?, text, String.toList_ofList]
  simp only [List.append_assoc, List.cons_append, readChars?, hfour, readMark?_cons,
    htwo t.month (by omega), htwo t.day (by omega), htwo t.hour (by omega),
    htwo t.minute (by omega), htwo t.second (by omega),
    readFraction?_fractionChars hnanos hpoint hdigit, readOffset?_offsetChars hoffset,
    Option.bind_eq_bind, Option.bind_some]
  exact ofParts?_self t

end StackAudit.Timestamp
