/-!
# White space

A character is blank when it has the Unicode property `White_Space`. Trimming removes blank
characters from both ends of a text; a zero width space and a byte order mark are not blank.
-/
namespace StackAudit.Text

/-- The characters with the Unicode property `White_Space`. -/
def isBlank (c : Char) : Bool :=
  (9 ≤ c.toNat && c.toNat ≤ 13) || c.toNat == 0x20 || c.toNat == 0x85 || c.toNat == 0xA0 ||
    c.toNat == 0x1680 || (0x2000 ≤ c.toNat && c.toNat ≤ 0x200A) || c.toNat == 0x2028 ||
    c.toNat == 0x2029 || c.toNat == 0x202F || c.toNat == 0x205F || c.toNat == 0x3000

/-- Drops the characters at the end of a list that satisfy `p`. -/
def dropEndWhile (p : Char → Bool) (cs : List Char) : List Char :=
  (cs.reverse.dropWhile p).reverse

@[simp] theorem dropEndWhile_nil (p : Char → Bool) : dropEndWhile p [] = [] := rfl

theorem dropEndWhile_concat (p : Char → Bool) (cs : List Char) (c : Char) :
    dropEndWhile p (cs ++ [c]) = if p c then dropEndWhile p cs else cs ++ [c] := by
  by_cases h : p c <;> simp [dropEndWhile, h]

/-- Drops the characters at both ends of a list that satisfy `p`. -/
def dropAroundWhile (p : Char → Bool) (cs : List Char) : List Char :=
  dropEndWhile p (cs.dropWhile p)

/-- Removes blank characters from both ends. -/
def trim (s : String) : String :=
  String.ofList (dropAroundWhile isBlank s.toList)

@[simp] theorem toList_trim (s : String) :
    (trim s).toList = dropAroundWhile isBlank s.toList := by
  simp [trim]

/-- The trimmed text, unless nothing but blank characters was there. -/
def trimmed? (s : String) : Option String :=
  if trim s = "" then none else some (trim s)

/-- A text without a character that is not blank. -/
def IsBlankText (s : String) : Prop := ∀ c ∈ s.toList, isBlank c = true

instance (s : String) : Decidable (IsBlankText s) :=
  inferInstanceAs (Decidable (∀ c ∈ s.toList, isBlank c = true))

end StackAudit.Text
