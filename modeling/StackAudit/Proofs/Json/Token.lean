import StackAudit.Json.Printer
import StackAudit.Json.Token
import StackAudit.Proofs.Json.Number

/-!
# Cutting what was written

A text is cut into the same tokens whatever stands behind it, as long as that does not carry on its
last word. So the tokens of a text are put together like the text itself. Quoting escapes every
character that could end the quotation, and every escape is undone.
-/
namespace StackAudit.Json.Token

open StackAudit.Text

/-! ### Tokens found before -/

theorem feedBetween_append (ts done : List Token) (c : Char) :
    feedBetween (ts ++ done) c = (feedBetween ts c).map fun p => (p.1, p.2 ++ done) := by
  unfold feedBetween
  split
  · rfl
  · split
    · rfl
    · split
      · rfl
      · cases ofMark? c <;> rfl

/-- The tokens found before play no part in reading a character. -/
theorem feed_append (s : State) (ts done : List Token) (c : Char) :
    feed (s, ts ++ done) c = (feed (s, ts) c).map fun p => (p.1, p.2 ++ done) := by
  cases s with
  | between => exact feedBetween_append ts done c
  | word rev =>
    simp only [feed]
    split
    · rfl
    · cases ofWord? rev.reverse with
      | none => rfl
      | some t => exact feedBetween_append (t :: ts) done c
  | text rev =>
    simp only [feed]
    split
    · rfl
    · split
      · rfl
      · split <;> rfl
  | escape rev =>
    simp only [feed]
    split
    · rfl
    · cases ofEscape? c <;> rfl
  | unit rev high value left =>
    simp only [feed]
    cases hexValue? c with
    | none => rfl
    | some d =>
      simp only [Option.bind_some]
      split
      · cases afterUnit? rev high (16 * value + d) <;> rfl
      · rfl
  | pair rev high =>
    simp only [feed]
    split <;> rfl
  | pairSlash rev high =>
    simp only [feed]
    split <;> rfl

theorem finish?_append (s : State) (ts done : List Token) :
    finish? (s, ts ++ done) = (finish? (s, ts)).map (done.reverse ++ ·) := by
  cases s with
  | word rev =>
    simp only [finish?]
    cases ofWord? rev.reverse <;> simp
  | _ => simp [finish?]

theorem foldlM_feed_append (cs : List Char) (s : State) (ts done : List Token) :
    (cs.foldlM feed (s, ts ++ done)).bind finish? =
      ((cs.foldlM feed (s, ts)).bind finish?).map (done.reverse ++ ·) := by
  induction cs generalizing s ts with
  | nil => exact finish?_append s ts done
  | cons c cs ih =>
    rw [List.foldlM_cons, List.foldlM_cons, feed_append]
    cases feed (s, ts) c with
    | none => rfl
    | some p => exact ih p.1 p.2

/-- Behind tokens that were found, the rest of a text is cut like a text of its own. -/
theorem bind_finish?_between (cs : List Char) (done : List Token) :
    (cs.foldlM feed (.between, done)).bind finish? = (ofText? cs).map (done.reverse ++ ·) :=
  foldlM_feed_append cs .between [] done

/-! ### Texts that are cut into tokens -/

/-- The characters do not carry on a word. -/
def NoWordHead (cs : List Char) : Prop := ∀ c ∈ cs.head?, isWordChar c = false

theorem noWordHead_nil : NoWordHead [] := by simp [NoWordHead]

theorem noWordHead_cons {c : Char} (h : isWordChar c = false) (cs : List Char) :
    NoWordHead (c :: cs) := by simpa [NoWordHead] using h

/-- The characters are cut into these tokens, whatever follows that does not carry on a word. -/
def Scans (cs : List Char) (ts : List Token) : Prop :=
  ∀ rest, NoWordHead rest → ofText? (cs ++ rest) = (ofText? rest).map (ts ++ ·)

theorem Scans.ofText?_eq {cs : List Char} {ts : List Token} (h : Scans cs ts) :
    ofText? cs = some ts := by
  have hrest := h [] noWordHead_nil
  rw [List.append_nil] at hrest
  rw [hrest]
  simp [ofText?, finish?]

theorem isWordChar_false_of_isSpace {c : Char} (h : isSpace c = true) : isWordChar c = false := by
  simp only [isSpace, Bool.or_eq_true, beq_iff_eq] at h
  rcases h with ((rfl | rfl) | rfl) | rfl <;> decide

theorem isWordChar_false_of_ofMark? {c : Char} {t : Token} (h : ofMark? c = some t) :
    isSpace c = false ∧ c ≠ '"' ∧ isWordChar c = false := by
  unfold ofMark? at h
  split_ifs at h <;> subst_vars <;> decide

theorem feedBetween_of_isWordChar {c : Char} (h : isWordChar c = true) (done : List Token) :
    feedBetween done c = some (.word [c], done) := by
  have hspace : isSpace c = false := by
    cases hc : isSpace c with
    | false => rfl
    | true => simp [isWordChar_false_of_isSpace hc] at h
  have hquote : c ≠ '"' := by
    rintro rfl
    exact absurd h (by decide)
  simp [feedBetween, hspace, hquote, h]

namespace Scans

variable {cs cs' : List Char} {ts ts' : List Token}

theorem nil : Scans [] [] := by
  intro rest _
  simp

theorem space {c : Char} (hc : isSpace c = true) (h : Scans cs ts) : Scans (c :: cs) ts := by
  intro rest hrest
  rw [← h rest hrest]
  simp [ofText?, feed, feedBetween, hc]

theorem mark {c : Char} {t : Token} (hc : ofMark? c = some t) (h : Scans cs ts) :
    Scans (c :: cs) (t :: ts) := by
  obtain ⟨hspace, hquote, hword⟩ := isWordChar_false_of_ofMark? hc
  intro rest hrest
  have hfeed : feed (.between, []) c = some (.between, [t]) := by
    simp [feed, feedBetween, hspace, hquote, hword, hc]
  rw [List.cons_append, ofText?, List.foldlM_cons, hfeed]
  change ((cs ++ rest).foldlM feed (.between, [t])).bind finish? = _
  rw [bind_finish?_between, h rest hrest, Option.map_map]
  rfl

/-- A text goes before another one that starts with no character of a word. -/
theorem append {c : Char} (hc : isWordChar c = false) (h : Scans cs ts)
    (h' : Scans (c :: cs') ts') :
    Scans (cs ++ c :: cs') (ts ++ ts') := by
  intro rest hrest
  rw [List.append_assoc, h (c :: cs' ++ rest) (noWordHead_cons hc _), h' rest hrest, Option.map_map]
  simp [Function.comp_def]

/-- A word is one token: it ends where no further character of a word follows. -/
theorem word {w : List Char} {t : Token} (hne : w ≠ []) (hw : w.all isWordChar = true)
    (ht : ofWord? w = some t) : Scans w [t] := by
  have hrun (w rev : List Char) (hw : ∀ c ∈ w, isWordChar c = true) :
      w.foldlM feed (.word rev, []) = some (.word (w.reverse ++ rev), []) := by
    induction w generalizing rev with
    | nil => rfl
    | cons c w ih =>
      obtain ⟨hc, hw⟩ := List.forall_mem_cons.1 hw
      simp [feed, hc, ih _ hw]
  intro rest hrest
  have hstart : w.foldlM feed (.between, []) = some (.word w.reverse, []) := by
    cases w with
    | nil => exact absurd rfl hne
    | cons c w =>
      obtain ⟨hc, hw⟩ := List.forall_mem_cons.1 (List.all_eq_true.1 hw)
      rw [List.foldlM_cons, feed, feedBetween_of_isWordChar hc]
      simpa using hrun w [c] hw
  have hend : (rest.foldlM feed (.word w.reverse, [])).bind finish? =
      (rest.foldlM feed (.between, [t])).bind finish? := by
    cases rest with
    | nil => simp [finish?, ht]
    | cons c rest =>
      have hc : isWordChar c = false := hrest c rfl
      rw [List.foldlM_cons, List.foldlM_cons]
      simp [feed, hc, ht]
  rw [ofText?, List.foldlM_append, hstart]
  change (rest.foldlM feed (.word w.reverse, [])).bind finish? = _
  rw [hend, bind_finish?_between]
  rfl

end Scans

/-! ### Quotations -/

/-- An escape by a letter is read as the character that the letter stands for. -/
theorem foldlM_feed_letter {letter c : Char} (hunit : letter ≠ 'u') (h : ofEscape? letter = some c)
    (rev : List Char) (done : List Token) :
    ['\\', letter].foldlM feed (.text rev, done) = some (.text (c :: rev), done) := by
  simp [feed, hunit, h]

/-- Four hexadecimal digits are read as the control character whose number they write. -/
theorem foldlM_feed_hex4 {n : Nat} (h : n < 0x20) (rev : List Char) (done : List Token) :
    (hex4 n).foldlM feed (.unit rev none 0 4, done) =
      some (.text (Char.ofNat n :: rev), done) := by
  have hdigit (k : Nat) : hexValue? (hexDigit (k % 16)) = some (k % 16) :=
    hexValue?_hexDigit (Nat.mod_lt k (by decide))
  have hvalue : 16 * (16 * (16 * (n / 4096 % 16) + n / 256 % 16) + n / 16 % 16) + n % 16 = n := by
    omega
  have hlow : ¬(0xD800 ≤ n ∧ n ≤ 0xDBFF) ∧ ¬(0xDC00 ≤ n ∧ n ≤ 0xDFFF) := by omega
  simp [hex4, feed, hdigit, hvalue, afterUnit?, hlow]

/-- Every character of a quotation is read back, escaped or not. -/
theorem foldlM_feed_escapeChar (c : Char) (rev : List Char) (done : List Token) :
    (escapeChar c).foldlM feed (.text rev, done) = some (.text (c :: rev), done) := by
  unfold escapeChar
  split_ifs with hquote hslash h8 hc hn hr ht hcontrol
  · subst hquote
    exact foldlM_feed_letter (by decide) (by decide) rev done
  · subst hslash
    exact foldlM_feed_letter (by decide) (by decide) rev done
  · subst h8
    exact foldlM_feed_letter (by decide) (by decide) rev done
  · subst hc
    exact foldlM_feed_letter (by decide) (by decide) rev done
  · subst hn
    exact foldlM_feed_letter (by decide) (by decide) rev done
  · subst hr
    exact foldlM_feed_letter (by decide) (by decide) rev done
  · subst ht
    exact foldlM_feed_letter (by decide) (by decide) rev done
  · have hopen : ['\\', 'u'].foldlM feed (.text rev, done) = some (.unit rev none 0 4, done) := rfl
    rw [List.foldlM_append, hopen]
    change (hex4 c.toNat).foldlM feed (.unit rev none 0 4, done) = _
    rw [foldlM_feed_hex4 hcontrol, Char.ofNat_toNat]
  · simp [feed, hquote, hslash, hcontrol]

/-- A text between quotes is one token, and does not care what follows. -/
theorem Scans.quote (s : String) {cs : List Char} {ts : List Token} (h : Scans cs ts) :
    Scans (Json.quote s ++ cs) (.text s :: ts) := by
  have hbody (body rev : List Char) (done : List Token) :
      (body.flatMap escapeChar).foldlM feed (.text rev, done) =
        some (.text (body.reverse ++ rev), done) := by
    induction body generalizing rev with
    | nil => rfl
    | cons c body ih =>
      rw [List.flatMap_cons, List.foldlM_append, foldlM_feed_escapeChar]
      change (body.flatMap escapeChar).foldlM feed (.text (c :: rev), done) = _
      rw [ih, List.reverse_cons, List.append_assoc, List.singleton_append]
  have hquoted : (Json.quote s).foldlM feed (.between, []) = some (.between, [.text s]) := by
    have hopen : feed (.between, []) '"' = some (.text [], []) := rfl
    rw [Json.quote, List.cons_append, List.foldlM_cons, hopen]
    change (s.toList.flatMap escapeChar ++ ['"']).foldlM feed (.text [], []) = _
    rw [List.foldlM_append, hbody]
    simp [feed]
  intro rest hrest
  rw [List.append_assoc, ofText?, List.foldlM_append, hquoted]
  change ((cs ++ rest).foldlM feed (.between, [.text s])).bind finish? = _
  rw [bind_finish?_between, h rest hrest, Option.map_map]
  rfl

/-- An integer is one word. -/
theorem Scans.int (n : Int) (h : FitsWord n) :
    Scans (Number.int n h).text.toList [.number (.int n h)] := by
  have hdigit {c : Char} (hc : c.isDigit = true) : isWordChar c = true := by
    simp [isWordChar, Char.isAlphanum, hc]
  have hchars : ∀ c ∈ (Number.int n h).text.toList, c = '-' ∨ c.isDigit = true :=
    fun _ => Number.mem_text_int
  apply Scans.word
  · rw [Number.toList_text_int]
    exact List.append_ne_nil_of_right_ne_nil _ Nat.toDigits_ne_nil
  · refine List.all_eq_true.2 fun c hc => ?_
    rcases hchars c hc with rfl | hc
    · decide
    · exact hdigit hc
  · have hne (l : List Char) (c : Char) (hc : ¬(c = '-' ∨ c.isDigit = true)) :
        (Number.int n h).text.toList ≠ c :: l := by
      intro hl
      exact hc (hchars c (hl ▸ List.mem_cons_self))
    rw [ofWord?, if_neg (hne _ 'n' (by decide)), if_neg (hne _ 't' (by decide)),
      if_neg (hne _ 'f' (by decide)), Number.read?_text_int]
    rfl

end StackAudit.Json.Token
