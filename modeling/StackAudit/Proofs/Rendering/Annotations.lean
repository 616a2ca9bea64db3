import StackAudit.Proofs.Rendering.PlainLines
import StackAudit.Rendering.Annotations

/-!
# Annotations that are read back

An annotation is one line. It starts with a level and perhaps a file, in which no colon is left, so
the first double colon behind them is where the text starts. Escapes are undone in one pass: every
percent sign of the original is escaped itself, so those that are left start an escape.
-/
namespace StackAudit.Annotations

/-! ### Escapes -/

/-- The character that a percent sign and two further characters stand for. -/
def escaped? : Char → Char → Option Char
  | '2', '5' => some '%'
  | '0', 'D' => some '\r'
  | '0', 'A' => some '\n'
  | '3', 'A' => some ':'
  | '2', 'C' => some ','
  | _, _ => none

/-- Undoes the escapes from left to right. A percent sign that starts none is kept. -/
def unescape : List Char → List Char
  | '%' :: a :: b :: r =>
    match escaped? a b with
    | some c => c :: unescape r
    | none => '%' :: unescape (a :: b :: r)
  | c :: r => c :: unescape r
  | [] => []

theorem unescape_cons {c : Char} (h : c ≠ '%') (r : List Char) :
    unescape (c :: r) = c :: unescape r := by
  rw [unescape]
  intro a b r' hc
  exact absurd hc h

theorem unescape_escapeDataChar (c : Char) (r : List Char) :
    unescape (escapeDataChar c ++ r) = c :: unescape r := by
  unfold escapeDataChar
  split_ifs with hpercent hreturn hfeed
  · rw [hpercent]
    rfl
  · rw [hreturn]
    rfl
  · rw [hfeed]
    rfl
  · exact unescape_cons hpercent r

theorem unescape_escapePropertyChar (c : Char) (r : List Char) :
    unescape (escapePropertyChar c ++ r) = c :: unescape r := by
  unfold escapePropertyChar
  split_ifs with hcolon hcomma
  · rw [hcolon]
    rfl
  · rw [hcomma]
    rfl
  · exact unescape_escapeDataChar c r

/-- What is escaped character by character is read back. -/
theorem unescape_flatMap {escape : Char → List Char}
    (h : ∀ c r, unescape (escape c ++ r) = c :: unescape r) (cs : List Char) :
    unescape (cs.flatMap escape) = cs := by
  induction cs with
  | nil => rfl
  | cons c cs ih => rw [List.flatMap_cons, h, ih]

/-- Replacing one character after the other comes to the same, if the percent sign is the first. -/
theorem escapeData_eq_replaceChar (s : String) :
    escapeData s = Text.replaceChar '\n' "%0A"
      (Text.replaceChar '\r' "%0D" (Text.replaceChar '%' "%25" s)) := by
  simp only [escapeData, Text.replaceChar, String.toList_ofList, List.flatMap_assoc]
  congr 2
  funext c
  unfold escapeDataChar
  split_ifs with hpercent hreturn hfeed
  · rfl
  · rw [hreturn]
    rfl
  · rw [hfeed]
    rfl
  · simp [hreturn, hfeed]

theorem escapeProperty_eq_replaceChar (s : String) :
    escapeProperty s = Text.replaceChar ',' "%2C" (Text.replaceChar ':' "%3A" (escapeData s)) := by
  simp only [escapeProperty, escapeData, Text.replaceChar, String.toList_ofList,
    List.flatMap_assoc]
  congr 2
  funext c
  by_cases hcolon : c = ':'
  · rw [hcolon]
    rfl
  · by_cases hcomma : c = ','
    · rw [hcomma]
      rfl
    · rw [escapePropertyChar, if_neg hcolon, if_neg hcomma, escapeDataChar]
      split_ifs
      any_goals rfl
      simp [hcolon, hcomma]

/-- The text that escapes stand for. -/
def decode (s : String) : String := String.ofList (unescape s.toList)

@[simp] theorem decode_escapeData (s : String) : decode (escapeData s) = s := by
  rw [decode, escapeData, String.toList_ofList, unescape_flatMap unescape_escapeDataChar,
    String.ofList_toList]

@[simp] theorem decode_escapeProperty (s : String) : decode (escapeProperty s) = s := by
  rw [decode, escapeProperty, String.toList_ofList, unescape_flatMap unescape_escapePropertyChar,
    String.ofList_toList]

open Text (IsUnbroken isUnbroken_append_iff)

theorem breaks_notMem_escapeDataChar (c : Char) :
    '\n' ∉ escapeDataChar c ∧ '\r' ∉ escapeDataChar c := by
  unfold escapeDataChar
  split_ifs with hpercent hreturn hfeed
  any_goals decide
  rw [List.mem_singleton, List.mem_singleton]
  exact ⟨Ne.symm hfeed, Ne.symm hreturn⟩

theorem breaks_notMem_escapePropertyChar (c : Char) :
    '\n' ∉ escapePropertyChar c ∧ '\r' ∉ escapePropertyChar c := by
  unfold escapePropertyChar
  split_ifs
  any_goals decide
  exact breaks_notMem_escapeDataChar c

theorem isUnbroken_flatMap {escape : Char → List Char}
    (h : ∀ c, '\n' ∉ escape c ∧ '\r' ∉ escape c) (s : String) :
    IsUnbroken (String.ofList (s.toList.flatMap escape)) := by
  simp only [IsUnbroken, String.toList_ofList, List.mem_flatMap, not_exists, not_and]
  exact ⟨fun c _ => (h c).1, fun c _ => (h c).2⟩

theorem isUnbroken_escapeData (s : String) : IsUnbroken (escapeData s) :=
  isUnbroken_flatMap breaks_notMem_escapeDataChar s

theorem isUnbroken_escapeProperty (s : String) : IsUnbroken (escapeProperty s) :=
  isUnbroken_flatMap breaks_notMem_escapePropertyChar s

theorem colon_notMem_escapeProperty (s : String) : ':' ∉ (escapeProperty s).toList := by
  rw [escapeProperty, String.toList_ofList, List.mem_flatMap]
  rintro ⟨c, -, hmem⟩
  revert hmem
  unfold escapePropertyChar escapeDataChar
  split_ifs with hcolon
  any_goals decide
  rw [List.mem_singleton]
  exact Ne.symm hcolon

/-! ### Commands -/

/-- The characters before and behind the first double colon. -/
def cutColons : List Char → Option (List Char × List Char)
  | ':' :: ':' :: r => some ([], r)
  | c :: r => (cutColons r).map fun (l, r) => (c :: l, r)
  | [] => none

/-- The texts before and behind the first double colon. -/
def splitColons (s : String) : Option (String × String) :=
  (cutColons s.toList).map fun (l, r) => (String.ofList l, String.ofList r)

theorem cutColons_append {front : List Char} (h : ':' ∉ front) (rest : List Char) :
    cutColons (front ++ ':' :: ':' :: rest) = some (front, rest) := by
  induction front with
  | nil => rfl
  | cons c front ih =>
    rw [List.mem_cons, not_or] at h
    obtain ⟨hc, hfront⟩ := h
    rw [List.cons_append, cutColons, ih hfront, Option.map_some]
    intro r hcolon
    exact absurd hcolon.symm hc

theorem splitColons_append {front : String} (h : ':' ∉ front.toList) (rest : String) :
    splitColons (front ++ "::" ++ rest) = some (front, rest) := by
  have hchars : (front ++ "::" ++ rest).toList = front.toList ++ ':' :: ':' :: rest.toList := by
    simp
  rw [splitColons, hchars, cutColons_append h]
  simp

/-- The level of the annotation of a verdict. -/
def level (failOn : Severity) (v : Verdict) : String :=
  if failOn ≤ v.severity then "error" else "warning"

/-- What stands between the first two double colons: the level and perhaps a file. -/
def head (failOn : Severity) (v : Verdict) : String :=
  level failOn v ++ (v.location.map fun l => " file=" ++ escapeProperty l.path.text).getD ""

/-- The text of the annotation of a verdict. -/
def text (v : Verdict) : String := s!"[{v.ruleKey}] {v.resourceId}: {v.message}"

theorem ofVerdict_eq (failOn : Severity) (v : Verdict) :
    ofVerdict failOn v = "::" ++ (head failOn v ++ "::" ++ escapeData (text v)) := by
  unfold ofVerdict head level text
  generalize (if failOn ≤ v.severity then "error" else "warning") = level,
    (v.location.map _).getD "" = place, escapeData _ = data
  rw [← String.toList_inj]
  simp only [String.toList_append, List.append_assoc]
  rfl

/-- A level holds no space, no colon and no line break. -/
theorem notMem_level (failOn : Severity) (v : Verdict) :
    ' ' ∉ (level failOn v).toList ∧ ':' ∉ (level failOn v).toList ∧
      IsUnbroken (level failOn v) := by
  unfold level
  split <;> decide

theorem colon_notMem_head (failOn : Severity) (v : Verdict) : ':' ∉ (head failOn v).toList := by
  have hlevel := (notMem_level failOn v).2.1
  cases hv : v.location with
  | none => simpa [head, hv] using hlevel
  | some l => simp [head, hv, hlevel, colon_notMem_escapeProperty]

theorem isUnbroken_ofVerdict (failOn : Severity) (v : Verdict) :
    IsUnbroken (ofVerdict failOn v) := by
  have hlevel := (notMem_level failOn v).2.2
  have hmarks : IsUnbroken "::" ∧ IsUnbroken " file=" ∧ IsUnbroken "" := by decide
  have hhead : IsUnbroken (head failOn v) := by
    cases hv : v.location with
    | none => simpa [head, hv] using hlevel
    | some l =>
      simp only [head, hv, Option.map_some, Option.getD_some, isUnbroken_append_iff]
      exact ⟨hlevel, hmarks.2.1, isUnbroken_escapeProperty _⟩
  rw [ofVerdict_eq]
  simp only [isUnbroken_append_iff, hmarks, hhead, isUnbroken_escapeData, and_self]

/-- What an annotation says. -/
structure Content where
  level : String
  /-- The path of the file, if one is given. -/
  file : Option String
  text : String
deriving DecidableEq

/-- The file that the head of a command gives behind the level, if it gives one. -/
def readHead? (front : String) : Option (String × Option String) :=
  match Text.splitFirst ' ' front with
  | none => some (front, none)
  | some (level, place) => (Text.behind? "file=" place).map fun path => (level, some (decode path))

/-- Reads an annotation back. Behind its first two colons it has a head, and behind the next double
colon its text. -/
def read? (command : String) : Option Content := do
  let (front, data) ← (Text.behind? "::" command).bind splitColons
  let (level, file) ← readHead? front
  return ⟨level, file, decode data⟩

theorem readHead?_head (failOn : Severity) (v : Verdict) :
    readHead? (head failOn v) = some (level failOn v, v.location.map (·.path.text)) := by
  have hlevel := (notMem_level failOn v).1
  cases hv : v.location with
  | none =>
    have hsplit : Text.splitFirst ' ' (level failOn v) = none := by
      rw [Text.splitFirst, Text.cutFirst_eq_none_iff.2 hlevel, Option.map_none]
    simp [readHead?, head, hv, hsplit]
  | some l =>
    have hhead : head failOn v =
        level failOn v ++ String.singleton ' ' ++ ("file=" ++ escapeProperty l.path.text) := by
      rw [head, hv, Option.map_some, Option.getD_some, ← String.toList_inj]
      simp
    rw [readHead?, hhead, Text.splitFirst_append hlevel]
    simp [Text.behind?_append]

/-- The level, the file and the text of a violation are read back from its annotation. -/
theorem read?_ofVerdict (failOn : Severity) (v : Verdict) :
    read? (ofVerdict failOn v) =
      some ⟨level failOn v, v.location.map (·.path.text), text v⟩ := by
  rw [read?, ofVerdict_eq, Text.behind?_append, Option.bind_some,
    splitColons_append (colon_notMem_head failOn v)]
  simp [readHead?_head]

/-- There is one annotation for each violation, in their order. Each of them is one line, from which
the level, the file if there is one, and the text are read back. -/
theorem ofReport_readBack (r : CheckReport) :
    List.Forall₂ (fun v command => IsUnbroken command ∧ read? command =
        some ⟨level r.gate.failOn v, v.location.map (·.path.text), text v⟩)
      ((r.results.flatMap (·.verdicts)).filter (·.outcome = .violation)) (ofReport r) := by
  have hviolations : r.violations =
      (r.results.flatMap (·.verdicts)).filter (·.outcome = .violation) := by
    rw [List.filter_flatMap]
    rfl
  rw [ofReport, hviolations, List.forall₂_map_right_iff, List.forall₂_same]
  intro v _
  exact ⟨isUnbroken_ofVerdict _ v, read?_ofVerdict _ v⟩

end StackAudit.Annotations
