import StackAudit.CommandLine.Run
import StackAudit.Proofs.Check.Stacks
import StackAudit.Proofs.Check.Tally
import StackAudit.Proofs.Rendering.Annotations
import StackAudit.Proofs.Rendering.JsonLines

/-!
# All renderings agree

Each rendering of a report counts its violations from a source of its own: from stored sums, from
the verdicts, or from the severities under the gate, and some of them leave out the stacks with an
error. For the report of a check all of them come to the same number.
-/
namespace StackAudit

variable {d : Disk} {request : CheckRequest}

/-! ### Locations do not count -/

namespace CheckReport

theorem total_fromRoot (r : CheckReport) (n : Summary → UInt32) :
    r.fromRoot.total n = r.total n := by
  rw [total, total, fromRoot, List.map_map]
  rfl

theorem violationsShown?_fromRoot (r : CheckReport) (text : String) :
    r.fromRoot.violationsShown? text = r.violationsShown? text := by
  have hgate : r.fromRoot.gate = r.gate := rfl
  have hdata : r.fromRoot.data = r.data := rfl
  have hstacks : r.fromRoot.results.length = r.results.length := List.length_map ..
  rw [violationsShown?, violationsShown?, hgate, hdata, hstacks]

theorem countP_verdicts_fromRoot {p : Verdict → Bool}
    (hp : ∀ v l, p { v with location := l } = p v) (r : CheckReport) :
    r.fromRoot.verdicts.countP p = r.verdicts.countP p := by
  have hstack (s : StackResult) : s.fromRoot.verdicts.countP p = s.verdicts.countP p := by
    rw [StackResult.fromRoot, List.countP_map]
    exact List.countP_congr fun v _ => by rw [Function.comp_apply, hp]
  simp only [verdicts, fromRoot, List.countP_flatMap, List.map_map, Function.comp_def, hstack]

end CheckReport

/-! ### Lines of JSON -/

open Json

theorem CheckReport.countP_records {r : CheckReport}
    (h : ∀ s ∈ r.results, s.error ≠ none → s.verdicts = []) :
    (r.results.flatMap StackResult.records).countP recordsViolation =
      r.verdicts.countP Verdict.isViolation := by
  have hstacks : r.results.map (fun s => s.records.countP recordsViolation) =
      r.results.map fun s => s.verdicts.countP Verdict.isViolation :=
    List.map_congr_left fun s hs => StackResult.countP_records (h s hs)
  rw [verdicts, List.countP_flatMap, List.countP_flatMap]
  exact congrArg List.sum hstacks

theorem CheckReport.IsTallied.error_fromRoot {r : CheckReport} (h : r.IsTallied) :
    ∀ s ∈ r.fromRoot.results, s.error ≠ none → s.verdicts = [] := by
  refine List.forall_mem_map.2 fun s hs herror => ?_
  rw [StackResult.fromRoot, (h.results s hs).error herror, List.map_nil]

/-! ### Annotations -/

namespace Annotations

/-- Whether the character does not end the level of a command. -/
def isLevelChar (c : Char) : Bool := c ≠ ' ' && c ≠ ':'

/-- The level of a command, which stands behind its first colons. -/
def level? (command : String) : Option String :=
  (Text.behind? "::" command).map fun rest => String.ofList (rest.toList.takeWhile isLevelChar)

/-- Behind the level of an annotation there is a space or a colon. -/
theorem exists_ofVerdict_eq (failOn : Severity) (v : Verdict) :
    ∃ c rest, isLevelChar c = false ∧
      ofVerdict failOn v = "::" ++ (level failOn v ++ (String.singleton c ++ rest)) := by
  cases hv : v.location with
  | none =>
    refine ⟨':', ":" ++ escapeData (text v), by decide, ?_⟩
    rw [ofVerdict_eq, head, hv, ← String.toList_inj]
    simp
  | some l =>
    refine ⟨' ', "file=" ++ escapeProperty l.path.text ++ "::" ++ escapeData (text v), by decide, ?_⟩
    rw [ofVerdict_eq, head, hv, ← String.toList_inj]
    simp

theorem level?_ofVerdict (failOn : Severity) (v : Verdict) :
    level? (ofVerdict failOn v) = some (level failOn v) := by
  obtain ⟨c, rest, hend, hcommand⟩ := exists_ofVerdict_eq failOn v
  have hlevel : (level failOn v).toList.all isLevelChar = true := by
    unfold level
    split <;> rfl
  have hchars : (level failOn v ++ (String.singleton c ++ rest)).toList =
      (level failOn v).toList ++ c :: rest.toList := by simp
  rw [level?, hcommand, Text.behind?_append, Option.map_some, hchars,
    List.takeWhile_append_of_pos (List.all_eq_true.1 hlevel),
    List.takeWhile_cons_of_neg (by simp [hend]), List.append_nil, String.ofList_toList]

theorem map_level?_ofReport (r : CheckReport) :
    (ofReport r).map level? = r.violations.map fun v => some (level r.gate.failOn v) := by
  rw [ofReport, List.map_map]
  exact List.map_congr_left fun v _ => level?_ofVerdict _ v

/-- The errors are the violations that reach the threshold of the gate. -/
theorem count_error_ofReport (r : CheckReport) :
    ((ofReport r).map level?).count (some "error") =
      r.verdicts.countP (Verdict.reaches r.gate.failOn) := by
  rw [map_level?_ofReport, List.count_eq_countP, List.countP_map, r.violations_eq_filter,
    List.countP_filter]
  refine List.countP_congr fun v _ => ?_
  by_cases h : r.gate.failOn ≤ v.severity <;> simp [level, Verdict.reaches, h]

theorem length_ofReport (r : CheckReport) :
    (ofReport r).length = r.verdicts.countP Verdict.isViolation := by
  rw [ofReport, List.length_map, r.violations_eq_filter, List.countP_eq_length_filter]

end Annotations

/-! ### Agreement -/

namespace CheckReport

/-- All renderings of a report show these numbers of violations, in all and under the gate. -/
structure Shows (r : CheckReport) (violations gated : Nat) : Prop where
  total : r.data.violationsTotal.toNat = violations
  gating : r.data.violationsGating.toNat = gated
  /-- The field in the last line of the text. -/
  text : (Text.lastFields (r.printed .text)).lookup "violations" = some (toString violations)
  /-- The number in the head of the Markdown. -/
  markdown : r.violationsShown? (r.printed .markdown) = some (toString violations)
  /-- The records among the lines of JSON. -/
  jsonLines : ∃ records, readLines? (r.printed .jsonLines) = some records ∧
    records.countP recordsViolation = violations
  annotations : (Annotations.ofReport r.fromRoot).length = violations
  errors : ((Annotations.ofReport r.fromRoot).map Annotations.level?).count (some "error") = gated
  warnings : ∀ command ∈ Annotations.ofReport r.fromRoot,
    Annotations.level? command ≠ some "error" → Annotations.level? command = some "warning"

theorem IsTallied.shows {r : CheckReport} (h : r.IsTallied)
    (hcount : r.verdicts.length < UInt32.size) :
    r.Shows (r.verdicts.countP Verdict.isViolation)
      (r.verdicts.countP (Verdict.reaches r.gate.failOn)) := by
  have htotal : toString (r.fromRoot.total Summary.violationCount) =
      toString (r.verdicts.countP Verdict.isViolation) := by
    rw [total_fromRoot, ← h.toNat_violationsTotal hcount, h.total]
    rfl
  have hviolations : r.fromRoot.verdicts.countP Verdict.isViolation =
      r.verdicts.countP Verdict.isViolation := r.countP_verdicts_fromRoot fun _ _ => rfl
  constructor
  case total => exact h.toNat_violationsTotal hcount
  case gating => exact h.toNat_violationsGating hcount
  case text =>
    rw [printed, lastFields_plainText, ← htotal]
    rfl
  case markdown =>
    have hshown := r.fromRoot.violationsShown?_markdown
    rwa [violationsShown?_fromRoot, htotal] at hshown
  case jsonLines =>
    refine ⟨_, r.fromRoot.readLines?_jsonLines, ?_⟩
    rw [countP_records h.error_fromRoot, hviolations]
  case annotations => rw [Annotations.length_ofReport, hviolations]
  case errors =>
    rw [Annotations.count_error_ofReport, r.countP_verdicts_fromRoot fun _ _ => rfl]
    rfl
  case warnings =>
    intro command hcommand hne
    obtain ⟨v, -, rfl⟩ := List.mem_map.1 hcommand
    rw [Annotations.level?_ofVerdict] at hne ⊢
    unfold Annotations.level at hne ⊢
    split_ifs at hne ⊢
    · exact absurd rfl hne
    · rfl

end CheckReport

/-- For the report of a check, all renderings show the numbers of violations among its verdicts, as
long as a word can count these. -/
theorem shows_of_check {startedAt finishedAt : Timestamp} {k : Checked}
    (h : check d request startedAt finishedAt = .ok k)
    (hcount : k.report.verdicts.length < UInt32.size) :
    k.report.Shows (k.report.verdicts.countP Verdict.isViolation)
      (k.report.verdicts.countP (Verdict.reaches k.report.gate.failOn)) :=
  (isTallied_of_check h).shows hcount

/-- A bucket of which only the name is declared. -/
def plainBucketText : String :=
  "[\x7b\"type\": \"aws:s3/bucket:Bucket\", \"name\": \"logs\"\x7d]"

def plainBucketDisk : Disk :=
  ⟨.dir [(.text "app", .dir [(.text "main.json", .file plainBucketText.toUTF8)])], []⟩

theorem shows_of_check_plainBucket :
    ∃ k, check plainBucketDisk { root := "app" } .epoch .epoch = .ok k ∧
      k.report.verdicts.length < UInt32.size ∧
      (∃ v ∈ k.report.verdicts, v.outcome = .violation) ∧
      k.report.Shows (k.report.verdicts.countP Verdict.isViolation)
        (k.report.verdicts.countP (Verdict.reaches k.report.gate.failOn)) := by
  obtain ⟨c, hc⟩ : ∃ c, Rules.catalog .strict = .ok c := Rules.exists_catalog_bare .strict
  have hget : plainBucketDisk.get "app" =
      .ok (.dir [(.text "main.json", .file plainBucketText.toUTF8)]) := rfl
  obtain ⟨hdir, hdirs⟩ := Disk.discover_of_isStack hget (by decide +kernel)
  obtain ⟨g, hg, hresources⟩ : ∃ g, (Document.decode ⟨"main.json"⟩ plainBucketText .json >>=
        fun docs => Graph.ofDocuments docs .builtin .reject) = .ok g ∧
      g.resources.map (fun s => (s.kind, (Verdict.ofRule g s Rules.encryptionRequired).outcome)) =
        [(.bucket, .violation)] := exists_eq_ok_of_map (by decide +kernel)
  obtain ⟨docs, hdocs, hgraph⟩ := bind_eq_ok_iff.1 hg
  have hload : Stack.load plainBucketDisk "app" .builtin Policy.strict.unknownKinds =
      .ok ⟨Stack.nameOf "app", "app", g⟩ := by
    rw [Stack.load, @readDocuments_main _ _ plainBucketText _ hget (by decide +kernel), hdocs]
    change (Graph.ofDocuments docs .builtin .reject).mapError _ >>= _ = _
    rw [hgraph]
    rfl
  have hstack : checkStack plainBucketDisk { root := "app" } .strict c "app" =
      .ok (.ofReport (Stack.nameOf "app") (.relativeTo "app" "app") (evaluate g c)) :=
    checkStack_of_load rfl hload (PoolBuilder.grants_none _)
  obtain ⟨k, hk, hresults, -⟩ := @exists_check plainBucketDisk { root := "app" } .strict c _ _ rfl hc
    hdir hdirs (mapM_eq_ok_iff.2 (.cons hstack .nil)) .epoch .epoch
  have hverdicts : k.report.verdicts = (evaluate g c).verdicts := by
    rw [CheckReport.verdicts, hresults, List.flatMap_singleton]
    rfl
  obtain ⟨b, hb, hbucket⟩ := List.map_eq_singleton_iff.1 hresources
  obtain ⟨hkind, houtcome⟩ := Prod.mk.inj hbucket
  have hlength : k.report.verdicts.length < UInt32.size := by
    have hrules : (c.toList.filter (·.applies .bucket)).length ≤ (Rules.builtin .strict).length :=
      (List.length_filter_le _ _).trans_eq (@Rules.catalog_bare_spec .strict c hc).2.length_eq
    rw [hverdicts, verdicts_evaluate, hb, List.flatMap_singleton, verdictsOn, List.length_map, hkind,
      (c.rulesFor_perm .bucket).length_eq]
    exact Nat.lt_of_le_of_lt hrules (by decide)
  have hrule : Rules.encryptionRequired ∈ c.rulesFor b.kind :=
    (@Rules.mem_rulesFor_bare_iff .strict c hc _ _).2
      ⟨by simp [Rules.builtin], by rw [hkind]; rfl⟩
  refine ⟨k, hk, hlength, ⟨_, ?_, houtcome⟩, shows_of_check hk hlength⟩
  rw [hverdicts]
  exact mem_verdicts_evaluate_iff.2 ⟨b, by simp [hb], _, hrule, rfl⟩

end StackAudit
