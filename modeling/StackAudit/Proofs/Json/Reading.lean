import StackAudit.Json.Parser
import StackAudit.Proofs.Json.Token

/-!
# Reading what was written

A value has its tokens, and they say all of it: reading them gives the value again, at any depth and
within any value that is still open. A value is cut into its tokens whether it is written on one line
or spread over lines. So its text is read back, when no mapping has a key twice, the nesting is
allowed and all numbers are integers.
-/
namespace StackAudit.Json

open Token

/-- Lists of tokens with commas between them. -/
def commaTokens : List (List Token) → List Token
  | [] => []
  | [p] => p
  | p :: q :: r => p ++ .comma :: commaTokens (q :: r)

mutual

/-- The tokens of a value. -/
def tokens : Json → List Token
  | .null => [.null]
  | .bool b => [.bool b]
  | .num n => [.number n]
  | .str s => [.text s]
  | .arr items => .openArr :: commaTokens (itemTokens items) ++ [.closeArr]
  | .obj fields => .openObj :: commaTokens (fieldTokens fields) ++ [.closeObj]

/-- The tokens of each item of a sequence. -/
def itemTokens : List Json → List (List Token)
  | [] => []
  | v :: r => tokens v :: itemTokens r

/-- The tokens of each field of a mapping. -/
def fieldTokens : List (String × Json) → List (List Token)
  | [] => []
  | (k, v) :: r => (.text k :: .colon :: tokens v) :: fieldTokens r

end

@[simp] theorem itemTokens_eq_map (l : List Json) : itemTokens l = l.map tokens := by
  induction l with
  | nil => simp [itemTokens]
  | cons v r ih => simp [itemTokens, ih]

@[simp] theorem fieldTokens_eq_map (l : List (String × Json)) :
    fieldTokens l = l.map fun e => .text e.1 :: .colon :: tokens e.2 := by
  induction l with
  | nil => simp [fieldTokens]
  | cons e r ih => simp [fieldTokens, ih]

@[simp] theorem compactItems_eq_map (l : List Json) : compactItems l = l.map compact := by
  induction l with
  | nil => simp [compactItems]
  | cons v r ih => simp [compactItems, ih]

@[simp] theorem compactFields_eq_map (l : List (String × Json)) :
    compactFields l = l.map fun e => quote e.1 ++ ':' :: compact e.2 := by
  induction l with
  | nil => simp [compactFields]
  | cons e r ih => simp [compactFields, ih]

@[simp] theorem spreadItems_eq_map (level : Nat) (l : List Json) :
    spreadItems level l = l.map fun v => newLine level ++ spread level v := by
  induction l with
  | nil => simp [spreadItems]
  | cons v r ih => simp [spreadItems, ih]

@[simp] theorem spreadFields_eq_map (level : Nat) (l : List (String × Json)) :
    spreadFields level l =
      l.map fun e => newLine level ++ quote e.1 ++ ':' :: ' ' :: spread level e.2 := by
  induction l with
  | nil => simp [spreadFields]
  | cons e r ih => simp [spreadFields, ih]

/-- A value whose text can be read back where it may be nested so deep. -/
inductive Readable : Nat → Json → Prop where
  | null {depth : Nat} : Readable depth .null
  | bool {depth : Nat} (b : Bool) : Readable depth (.bool b)
  | int {depth : Nat} (n : Int) (h : FitsWord n) : Readable depth (.num (.int n h))
  | str {depth : Nat} (s : String) : Readable depth (.str s)
  | arr {depth : Nat} {items : List Json} (h : ∀ v ∈ items, Readable depth v) :
    Readable (depth + 1) (.arr items)
  | obj {depth : Nat} {fields : List (String × Json)} (hkeys : (fields.map Prod.fst).Nodup)
    (h : ∀ e ∈ fields, Readable depth e.2) : Readable (depth + 1) (.obj fields)

/-! ### From text to tokens -/

theorem scans_commaSeparated {α : Type} {f : α → List Char} {g : α → List Token} {l : List α}
    (h : ∀ a ∈ l, Scans (f a) (g a)) :
    Scans (commaSeparated (l.map f)) (commaTokens (l.map g)) := by
  induction l with
  | nil => exact .nil
  | cons a l ih =>
    obtain ⟨ha, hl⟩ := List.forall_mem_cons.1 h
    cases l with
    | nil => exact ha
    | cons b l => exact .append (by decide) ha (.mark rfl (ih hl))

/-- A value on one line is cut into its tokens. -/
theorem scans_compact {depth : Nat} {v : Json} (h : Readable depth v) :
    Scans v.compact v.tokens := by
  have henclosed {cs : List Char} {ts : List Token} {opening closing : Char} {t t' : Token}
      (hopen : ofMark? opening = some t) (hclose : ofMark? closing = some t') (h : Scans cs ts) :
      Scans (opening :: cs ++ [closing]) (t :: ts ++ [t']) :=
    .mark hopen (.append (isWordChar_false_of_ofMark? hclose).2.2 h (.mark hclose .nil))
  induction h with
  | null =>
    simp only [compact, tokens]
    exact .word (by decide) (by decide) (by decide)
  | bool b =>
    simp only [compact, tokens]
    cases b <;> exact .word (by decide) (by decide) (by decide)
  | int n h =>
    simp only [compact, tokens]
    exact .int n h
  | str s =>
    simp only [compact, tokens]
    simpa using Scans.quote s .nil
  | arr _ ih =>
    simp only [compact, tokens, compactItems_eq_map, itemTokens_eq_map]
    exact henclosed rfl rfl (scans_commaSeparated ih)
  | obj _ _ ih =>
    simp only [compact, tokens, compactFields_eq_map, fieldTokens_eq_map]
    refine henclosed rfl rfl (scans_commaSeparated fun e he => ?_)
    exact .quote e.1 (.mark rfl (ih e he))

theorem scans_newLine (level : Nat) {cs : List Char} {ts : List Token} (h : Scans cs ts) :
    Scans (newLine level ++ cs) ts := by
  have hspaces (n : Nat) : Scans (List.replicate n ' ' ++ cs) ts := by
    induction n with
    | zero => exact h
    | succ n ih => exact .space rfl ih
  exact .space rfl (hspaces (2 * level))

/-- Parts between marks, the closing one on a line of its own. -/
theorem scans_enclosed {α : Type} {f : α → List Char} {g : α → List Token} {l : List α}
    {opening closing : Char} {t t' : Token} (hopen : ofMark? opening = some t)
    (hclose : ofMark? closing = some t') (level : Nat) (h : ∀ a ∈ l, Scans (f a) (g a)) :
    Scans (opening :: commaSeparated (l.map f) ++ newLine level ++ [closing])
      (t :: commaTokens (l.map g) ++ [t']) := by
  have hend : Scans (newLine level ++ [closing]) [t'] :=
    scans_newLine level (.mark hclose .nil)
  rw [List.append_assoc]
  exact .mark hopen (.append (by decide) (scans_commaSeparated h) hend)

/-- A value that is spread over lines is cut into its tokens. -/
theorem scans_spread {depth : Nat} {v : Json} (h : Readable depth v) (level : Nat) :
    Scans (v.spread level) v.tokens := by
  induction h generalizing level with
  | null => simpa only [spread] using scans_compact (@Readable.null 0)
  | bool b => simpa only [spread] using scans_compact (@Readable.bool 0 b)
  | int n h => simpa only [spread] using scans_compact (@Readable.int 0 n h)
  | str s => simpa only [spread] using scans_compact (@Readable.str 0 s)
  | @arr depth items _ ih =>
    cases items with
    | nil =>
      simp only [spread, tokens]
      exact .mark rfl (.mark rfl .nil)
    | cons v r =>
      simp only [spread, tokens, spreadItems_eq_map, itemTokens_eq_map]
      exact scans_enclosed rfl rfl level fun v hv => scans_newLine _ (ih v hv _)
  | @obj depth fields _ _ ih =>
    cases fields with
    | nil =>
      simp only [spread, tokens]
      exact .mark rfl (.mark rfl .nil)
    | cons e r =>
      simp only [spread, tokens, spreadFields_eq_map, fieldTokens_eq_map]
      refine scans_enclosed rfl rfl level fun e he => ?_
      rw [List.append_assoc]
      exact scans_newLine _ (.quote e.1 (.mark rfl (.space rfl (ih e he _))))

/-! ### From tokens to values -/

theorem setField_of_not_mem {k : String} {l : List (String × Json)} (h : k ∉ l.map Prod.fst)
    (v : Json) : setField k v l = l ++ [(k, v)] := by
  induction l with
  | nil => rfl
  | cons e l ih =>
    simp only [List.map_cons, List.mem_cons, not_or] at h
    rw [setField, if_neg (Ne.symm h.1), ih h.2, List.cons_append]

/-- No value starts with the end of a sequence. -/
theorem exists_tokens_eq_cons (v : Json) : ∃ t ts, v.tokens = t :: ts ∧ t ≠ .closeArr := by
  cases v <;> simp [tokens]

theorem exists_commaTokens_eq_append (p : List Token) (l : List (List Token)) :
    ∃ ts, commaTokens (p :: l) = p ++ ts := by
  cases l with
  | nil => exact ⟨[], (List.append_nil p).symm⟩
  | cons q l => exact ⟨_, rfl⟩

namespace Reader

/-- The tokens lead from one state of the reader to another one. -/
def Reads (limit : Nat) (r : Reader) (ts : List Token) (r' : Reader) : Prop :=
  ts.foldlM (feed limit) r = some r'

variable {limit : Nat}

namespace Reads

variable {r r' r'' : Reader} {t : Token} {ts ts' : List Token}

theorem nil : Reads limit r [] r := rfl

theorem cons (h : feed limit r t = some r') (h' : Reads limit r' ts r'') :
    Reads limit r (t :: ts) r'' := by
  rw [Reads, List.foldlM_cons, h]
  exact h'

theorem append (h : Reads limit r ts r') (h' : Reads limit r' ts' r'') :
    Reads limit r (ts ++ ts') r'' := by
  rw [Reads, List.foldlM_append, h]
  exact h'

end Reads

/-- The first item of a sequence is read like a further one, since it is not the end. -/
theorem Reads.firstItem {stack : List Frame} {t : Token} {ts : List Token} {r : Reader}
    (hne : t ≠ .closeArr) (h : Reads limit (.value (.items [] :: stack)) (t :: ts) r) :
    Reads limit (.firstItem stack) (t :: ts) r := by
  have hfeed : feed limit (.firstItem stack) t = feed limit (.value (.items [] :: stack)) t := by
    cases t <;> first | rfl | exact absurd rfl hne
  rw [Reads, List.foldlM_cons] at h ⊢
  rw [hfeed]
  exact h

/-- The tokens of a value are read as the value, wherever one nested so deep may be opened. -/
def Complete (limit depth : Nat) (v : Json) : Prop :=
  ∀ stack : List Frame, stack.length + depth ≤ limit →
    Reads limit (.value stack) v.tokens (.after v stack)

variable {depth : Nat}

/-- The items of a sequence are read one after the other. -/
theorem reads_items {v : Json} {items : List Json} (h : ∀ w ∈ v :: items, Complete limit depth w)
    (rev : List Json) {stack : List Frame} (hroom : stack.length + (depth + 1) ≤ limit) :
    Reads limit (.value (.items rev :: stack))
      (commaTokens ((v :: items).map tokens) ++ [.closeArr])
      (.after (.arr (rev.reverse ++ v :: items)) stack) := by
  induction items generalizing v rev with
  | nil =>
    have hv := h v List.mem_cons_self (.items rev :: stack) (by simp only [List.length_cons]; omega)
    refine hv.append (.cons ?_ .nil)
    simp [feed, afterValue]
  | cons w items ih =>
    obtain ⟨hv, hitems⟩ := List.forall_mem_cons.1 h
    have hv := hv (.items rev :: stack) (by simp only [List.length_cons]; omega)
    have hrest := ih hitems (v :: rev)
    rw [List.reverse_cons, List.append_assoc, List.singleton_append] at hrest
    rw [List.map_cons, List.map_cons, commaTokens, List.append_assoc]
    exact hv.append (.cons rfl hrest)

/-- The fields of a mapping are read one after the other, and none of them takes the place of one
before it. -/
theorem reads_fields {e : String × Json} {fields : List (String × Json)}
    (h : ∀ x ∈ e :: fields, Complete limit depth x.2) (done : List (String × Json))
    (hkeys : ((done ++ e :: fields).map Prod.fst).Nodup) {stack : List Frame}
    (hroom : stack.length + (depth + 1) ≤ limit) :
    Reads limit (.key done stack)
      (commaTokens ((e :: fields).map fun x => .text x.1 :: .colon :: tokens x.2) ++ [.closeObj])
      (.after (.obj (done ++ e :: fields)) stack) := by
  have hset (e : String × Json) (fields done : List (String × Json))
      (hkeys : ((done ++ e :: fields).map Prod.fst).Nodup) :
      setField e.1 e.2 done = done ++ [e] := by
    apply setField_of_not_mem
    rw [List.map_append, List.map_cons] at hkeys
    exact fun hmem => (List.nodup_append.1 hkeys).2.2 e.1 hmem e.1 List.mem_cons_self rfl
  induction fields generalizing e done with
  | nil =>
    have he := h e List.mem_cons_self (.field done e.1 :: stack)
      (by simp only [List.length_cons]; omega)
    refine .cons rfl (.cons rfl (he.append (.cons ?_ .nil)))
    simp [feed, afterValue, hset e [] done hkeys]
  | cons x fields ih =>
    obtain ⟨he, hfields⟩ := List.forall_mem_cons.1 h
    have he := he (.field done e.1 :: stack) (by simp only [List.length_cons]; omega)
    have hafter : feed limit (.after e.2 (.field done e.1 :: stack)) .comma =
        some (.key (done ++ [e]) stack) := by
      simp [feed, afterValue, hset e (x :: fields) done hkeys]
    have hmoved : done ++ [e] ++ x :: fields = done ++ e :: x :: fields := by simp
    have hrest := ih hfields (done ++ [e]) (hmoved ▸ hkeys)
    rw [hmoved] at hrest
    rw [List.map_cons, List.map_cons, commaTokens, List.append_assoc]
    exact .cons rfl (.cons rfl (he.append (.cons hafter hrest)))

/-- The tokens of a value that may be read are read as the value. -/
theorem complete_of_readable {v : Json} (h : Readable depth v) : Complete limit depth v := by
  induction h with
  | null => exact fun _ _ => .cons rfl .nil
  | bool b => exact fun _ _ => .cons rfl .nil
  | int n h => exact fun _ _ => .cons rfl .nil
  | str s => exact fun _ _ => .cons rfl .nil
  | @arr depth items _ ih =>
    intro stack hroom
    have hopen : feed limit (.value stack) .openArr = some (.firstItem stack) := by
      rw [feed, startValue, if_pos (by omega)]
    simp only [tokens, itemTokens_eq_map, List.cons_append]
    apply Reads.cons hopen
    cases items with
    | nil => exact .cons rfl .nil
    | cons v items =>
      have hitems := reads_items ih [] hroom
      obtain ⟨t, rest, htokens, hne⟩ := exists_tokens_eq_cons v
      obtain ⟨ts, hts⟩ := exists_commaTokens_eq_append v.tokens (items.map tokens)
      rw [List.map_cons, hts, htokens] at hitems ⊢
      exact .firstItem hne hitems
  | @obj depth fields hkeys _ ih =>
    intro stack hroom
    have hopen : feed limit (.value stack) .openObj = some (.firstKey stack) := by
      rw [feed, startValue, if_pos (by omega)]
    simp only [tokens, fieldTokens_eq_map, List.cons_append]
    apply Reads.cons hopen
    cases fields with
    | nil => exact .cons rfl .nil
    | cons e fields =>
      have hfields := reads_fields ih [] hkeys hroom
      obtain ⟨ts, hts⟩ := exists_commaTokens_eq_append (.text e.1 :: .colon :: tokens e.2)
        (fields.map fun x => .text x.1 :: .colon :: tokens x.2)
      rw [List.map_cons, hts] at hfields ⊢
      -- The first key is read like a further one.
      exact hfields

end Reader

/-- What is cut into the tokens of a value is read as the value. -/
theorem read?_of_scans {v : Json} (h : Readable maxDepth v) {cs : List Char}
    (hscans : Scans cs v.tokens) : read? (String.ofList cs) = some v := by
  have hvalue := Reader.complete_of_readable h [] (Nat.zero_add _).le
  rw [read?, readNested?, String.toList_ofList, hscans.ofText?_eq]
  change (v.tokens.foldlM (Reader.feed maxDepth) (.value [])).bind Reader.result? = some v
  rw [hvalue]
  rfl

/-- The text of a value is read back. -/
theorem read?_prettyText {v : Json} (h : Readable maxDepth v) : read? v.prettyText = some v :=
  read?_of_scans h (scans_spread h 0)

/-- So is its text on one line. -/
theorem read?_compactText {v : Json} (h : Readable maxDepth v) : read? v.compactText = some v :=
  read?_of_scans h (scans_compact h)

end StackAudit.Json
