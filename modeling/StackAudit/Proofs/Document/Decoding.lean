import Mathlib.Logic.Relation
import StackAudit.Document.Decode
import StackAudit.Proofs.Json.Path
import StackAudit.Proofs.Json.Reading
import StackAudit.Proofs.Report

/-!
# Roots and the numbers of documents

The roots of a text are read one after the other, and a sequence among them as if its items stood in
its place. So it makes no difference to the documents how the values of a text are put into
sequences, or whether there are nulls between them. The documents are numbered through from zero.
-/
namespace StackAudit.Document

open Relation (ReflTransGen)

/-- A list of roots with one sequence less around its values, or with one null less. -/
inductive Opens : List Json → List Json → Prop where
  | sequence (before items after : List Json) :
    Opens (before ++ .arr items :: after) (before ++ items ++ after)
  | null (before after : List Json) : Opens (before ++ .null :: after) (before ++ after)

/-- A value that stands for documents by itself: neither a sequence nor null. -/
def IsUnit (v : Json) : Prop := v ≠ .null ∧ ∀ items, v ≠ .arr items

/-- Documents with the given bodies, all of one file, and numbered from zero as far as numbers
go. -/
structure IsNumbered (source : StackPath) (bodies : List Json) (docs : List RawDocument) :
    Prop where
  bodies : docs.map (·.body) = bodies
  source : ∀ d ∈ docs, d.doc.source = source
  indices : docs.length ≤ UInt32.size → docs.map (·.doc.index.toNat) = List.range docs.length

theorem Opens.flattenAll_eq {roots roots' : List Json} (h : Opens roots roots') :
    flattenAll roots = flattenAll roots' := by
  cases h with
  | sequence before items after => simp [flatten]
  | null before after => simp [flatten]

theorem flattenAll_of_opens {roots xs : List Json} (h : ReflTransGen Opens roots xs) :
    flattenAll roots = flattenAll xs := by
  induction h with
  | refl => rfl
  | tail _ hstep ih => rw [ih, hstep.flattenAll_eq]

/-! ### Opening all sequences -/

theorem Opens.around {roots roots' : List Json} (h : Opens roots roots') (front back : List Json) :
    Opens (front ++ roots ++ back) (front ++ roots' ++ back) := by
  cases h with
  | sequence before items after =>
    have hstep := Opens.sequence (front ++ before) items (after ++ back)
    simpa only [List.append_assoc, List.cons_append] using hstep
  | null before after =>
    have hstep := Opens.null (front ++ before) (after ++ back)
    simpa only [List.append_assoc, List.cons_append] using hstep

theorem opens_append {l l' m m' : List Json} (hl : ReflTransGen Opens l l')
    (hm : ReflTransGen Opens m m') : ReflTransGen Opens (l ++ m) (l' ++ m') := by
  have hfirst : ReflTransGen Opens (l ++ m) (l' ++ m) :=
    hl.lift (· ++ m) fun _ _ h => by simpa using h.around [] m
  have hsecond : ReflTransGen Opens (l' ++ m) (l' ++ m') :=
    hm.lift (l' ++ ·) fun _ _ h => by simpa using h.around l' []
  exact hfirst.trans hsecond

/-- What can be opened one by one can be opened together. -/
theorem exists_opened_of_forall {roots : List Json}
    (h : ∀ v ∈ roots, ∃ us, ReflTransGen Opens [v] us ∧ ∀ u ∈ us, IsUnit u) :
    ∃ us, ReflTransGen Opens roots us ∧ ∀ u ∈ us, IsUnit u := by
  induction roots with
  | nil => exact ⟨[], .refl, by simp⟩
  | cons v r ih =>
    obtain ⟨⟨us, hv, hus⟩, hr⟩ := List.forall_mem_cons.1 h |>.imp_right ih
    obtain ⟨ws, hws, hunits⟩ := hr
    refine ⟨us ++ ws, opens_append hv hws, fun u hu => ?_⟩
    exact (List.mem_append.1 hu).elim (hus u) (hunits u)

theorem exists_opened_singleton (v : Json) :
    ∃ us, ReflTransGen Opens [v] us ∧ ∀ u ∈ us, IsUnit u := by
  induction v using Json.induction_children with
  | h v ih =>
  cases v with
  | null => exact ⟨[], .single (.null [] []), by simp⟩
  | arr items =>
    obtain ⟨us, hitems, hus⟩ := exists_opened_of_forall ih
    have hopen : Opens [.arr items] items := by simpa using Opens.sequence [] items []
    exact ⟨us, .head hopen hitems, hus⟩
  | _ => exact ⟨_, .refl, by simp [IsUnit]⟩

theorem exists_opened (roots : List Json) :
    ∃ us, ReflTransGen Opens roots us ∧ ∀ u ∈ us, IsUnit u :=
  exists_opened_of_forall fun v _ => exists_opened_singleton v

/-! ### Numbers -/

theorem isNumbered_number (source : StackPath) (bodies : List Json) :
    IsNumbered source bodies (number source bodies) where
  bodies := by
    simp only [number, List.map_map, Function.comp_def]
    exact List.zipIdx_map_fst 0 bodies
  source := by
    intro d hd
    obtain ⟨e, -, rfl⟩ := List.mem_map.1 hd
    rfl
  indices := by
    intro hlength
    have hword : ∀ e ∈ bodies.zipIdx, (Summary.saturate e.2).toNat = e.2 := fun e he =>
      Summary.toNat_saturate <| calc
        e.2 < bodies.length := List.snd_lt_of_mem_zipIdx he
        _ = (number source bodies).length := by simp [number]
        _ ≤ UInt32.size := hlength
    calc (number source bodies).map (·.doc.index.toNat)
        = bodies.zipIdx.map fun e => (Summary.saturate e.2).toNat := by
          simp only [number, List.map_map, Function.comp_def]
      _ = bodies.zipIdx.map Prod.snd := List.map_congr_left hword
      _ = List.range (number source bodies).length := by
          simp [number, List.range_eq_range']

theorem decode_eq_ok_iff {source : StackPath} {text : String} {format : Format}
    {docs : List RawDocument} : decode source text format = .ok docs ↔
      ∃ roots, values? format text = some roots ∧ number source (flattenAll roots) = docs := by
  rw [decode]
  cases values? format text <;> simp

/-- The text of a value has the documents of the value. -/
theorem decode_compactText (source : StackPath) {v : Json} (h : v.Readable Json.maxDepth) :
    decode source v.compactText .json = .ok (number source (flatten v)) := by
  refine decode_eq_ok_iff.2 ⟨[v], ?_, by simp⟩
  rw [values?, Json.read?_compactText h, Option.map_some]

/-- The documents of a sequence are those of its items one after the other, whatever the items are,
and so on as deep as sequences are nested. Whatever is decoded has the documents of its roots,
numbered through. -/
theorem decode_composes :
    (∀ xs, flattenAll [.arr xs] = xs.flatMap fun x => flattenAll [x]) ∧
      (∀ roots xs, ReflTransGen Opens roots xs →
        flattenAll roots = xs.flatMap fun x => flattenAll [x]) ∧
      (∀ roots, ∃ xs, ReflTransGen Opens roots xs ∧ ∀ x ∈ xs, IsUnit x) ∧
      ∀ source text format docs, decode source text format = .ok docs →
        ∃ roots, values? format text = some roots ∧ IsNumbered source (flattenAll roots) docs := by
  refine ⟨fun xs => by simp [flatten], fun roots xs h => ?_, exists_opened,
    fun source text format docs h => ?_⟩
  · rw [flattenAll_of_opens h]
    simp
  · obtain ⟨roots, hroots, rfl⟩ := decode_eq_ok_iff.1 h
    exact ⟨roots, hroots, isNumbered_number source _⟩

end StackAudit.Document
