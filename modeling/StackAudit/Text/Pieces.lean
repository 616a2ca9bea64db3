/-!
# Cutting and joining text

Every cut is a function on the list of characters of a text. The pieces of a text between
occurrences of a separator, the two parts around its first or last occurrence, and what is left
behind a given beginning or before a given end.
-/
namespace StackAudit.Text

/-- The pieces of a text between the occurrences of a character: one more than there are
occurrences, so the empty text has one empty piece. -/
def pieces (sep : Char) (s : String) : List String :=
  (s.toList.splitOn sep).map String.ofList

/-- The characters before and behind the first occurrence of `sep`. -/
def cutFirst (sep : Char) : List Char → Option (List Char × List Char)
  | [] => none
  | c :: cs =>
    if c = sep then some ([], cs)
    else (cutFirst sep cs).map fun (l, r) => (c :: l, r)

theorem eq_append_of_cutFirst {sep : Char} {cs l r : List Char}
    (h : cutFirst sep cs = some (l, r)) : cs = l ++ sep :: r ∧ sep ∉ l := by
  induction cs generalizing l with
  | nil => simp [cutFirst] at h
  | cons c cs ih =>
    by_cases hc : c = sep
    · simp only [cutFirst, hc, if_true, Option.some.injEq, Prod.mk.injEq] at h
      obtain ⟨rfl, rfl⟩ := h
      exact ⟨by simp [hc], by simp⟩
    · simp only [cutFirst, hc, if_false, Option.map_eq_some_iff] at h
      obtain ⟨⟨l', r'⟩, h', he⟩ := h
      simp only [Prod.mk.injEq] at he
      obtain ⟨rfl, rfl⟩ := he
      obtain ⟨rfl, hn⟩ := ih h'
      exact ⟨by simp, by simp [hn, Ne.symm hc]⟩

theorem cutFirst_append_cons {sep : Char} {l : List Char} (h : sep ∉ l) (r : List Char) :
    cutFirst sep (l ++ sep :: r) = some (l, r) := by
  induction l with
  | nil => simp [cutFirst]
  | cons c l ih =>
    simp only [List.mem_cons, not_or] at h
    simp [cutFirst, Ne.symm h.1, ih h.2]

theorem cutFirst_eq_none_iff {sep : Char} {cs : List Char} :
    cutFirst sep cs = none ↔ sep ∉ cs := by
  induction cs with
  | nil => simp [cutFirst]
  | cons c cs ih =>
    by_cases hc : c = sep
    · simp [cutFirst, hc]
    · simp [cutFirst, hc, ih, Ne.symm hc]

/-- The texts before and behind the first occurrence of `sep`. -/
def splitFirst (sep : Char) (s : String) : Option (String × String) :=
  (cutFirst sep s.toList).map fun (l, r) => (String.ofList l, String.ofList r)

/-- The texts before and behind the last occurrence of `sep`. -/
def splitLast (sep : Char) (s : String) : Option (String × String) :=
  (cutFirst sep s.toList.reverse).map fun (l, r) =>
    (String.ofList r.reverse, String.ofList l.reverse)

/-- What follows `beginning` in `s`, if `s` starts with it. -/
def behind? (beginning s : String) : Option String :=
  (beginning.toList.isPrefixOf? s.toList).map String.ofList

/-- What precedes `ending` in `s`, if `s` ends with it. -/
def before? (ending s : String) : Option String :=
  (ending.toList.reverse.isPrefixOf? s.toList.reverse).map fun r => String.ofList r.reverse

/-- Whether `s` starts with `beginning`. -/
def startsWith (beginning s : String) : Bool := (behind? beginning s).isSome

/-- Whether `s` ends with `ending`. -/
def endsWith (ending s : String) : Bool := (before? ending s).isSome

/-- Whether the character occurs in the text. -/
def hasChar (c : Char) (s : String) : Bool := s.toList.contains c

/-- Writes `new` for each occurrence of the character `old`. -/
def replaceChar (old : Char) (new : String) (s : String) : String :=
  String.ofList (s.toList.flatMap fun c => if c = old then new.toList else [c])

/-- Lower-cases the letters of the English alphabet and keeps all else. -/
def asciiLower (s : String) : String := String.ofList (s.toList.map Char.toLower)

/-- Equality up to the case of the letters of the English alphabet. -/
def eqIgnoringAsciiCase (s t : String) : Bool := asciiLower s == asciiLower t

/-- The value of a decimal digit. -/
def digit? (c : Char) : Option Nat :=
  if '0' ≤ c ∧ c ≤ '9' then some (c.toNat - '0'.toNat) else none

/-- The number written by a nonempty list of decimal digits. -/
def readDigits? : List Char → Option Nat
  | [] => none
  | cs => cs.foldl (fun acc c => do pure (10 * (← acc) + (← digit? c))) (some 0)

/-- The lower-case hexadecimal digit of a number below 16. -/
def hexDigit (n : Nat) : Char :=
  if n < 10 then Char.ofNat ('0'.toNat + n) else Char.ofNat ('a'.toNat + (n - 10))

/-- The value of a hexadecimal digit in either case. -/
def hexValue? (c : Char) : Option Nat :=
  if '0' ≤ c ∧ c ≤ '9' then some (c.toNat - '0'.toNat)
  else if 'a' ≤ c ∧ c ≤ 'f' then some (c.toNat - 'a'.toNat + 10)
  else if 'A' ≤ c ∧ c ≤ 'F' then some (c.toNat - 'A'.toNat + 10)
  else none

/-- A number of four hexadecimal digits. -/
def hex4 (n : Nat) : List Char :=
  [hexDigit (n / 4096 % 16), hexDigit (n / 256 % 16), hexDigit (n / 16 % 16), hexDigit (n % 16)]

end StackAudit.Text
