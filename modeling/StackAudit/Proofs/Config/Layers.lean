import StackAudit.Config.Resolution
import StackAudit.Proofs.Except
import StackAudit.Proofs.KeyMap

/-!
# What the layers of a configuration say

A resolved policy is read off its layers field by field: the last layer that makes a setting decides
it, and a setting that no layer makes is that of the profile. A configuration resolves unless one of
its settings is none of its kind, and there are six ways for that.
-/
namespace StackAudit

/-- A value under a setting: what the setting says, or the old value if there is no setting. -/
inductive Layered {σ α : Type} (Says : σ → α → Prop) (old : α) : Option σ → α → Prop where
  | set {s : σ} {new : α} (h : Says s new) : Layered Says old (some s) new
  | keep : Layered Says old none old

namespace Layered

variable {σ α : Type} {Says : σ → α → Prop} {old new new' : α} {s : σ} {setting : Option σ}

@[simp] theorem some_iff : Layered Says old (some s) new ↔ Says s new := by
  constructor
  · intro h
    cases h with
    | set h => exact h
  · exact .set

@[simp] theorem none_iff : Layered Says old none new ↔ new = old := by
  constructor
  · intro h
    cases h
    rfl
  · intro h
    exact h ▸ .keep

/-- Settings that say something are enough for a value. -/
theorem exists_iff : (∃ new, Layered Says old setting new) ↔
    ∀ s, setting = some s → ∃ new, Says s new := by
  cases setting <;> simp

theorem unique (hSays : ∀ s v w, Says s v → Says s w → v = w) (h : Layered Says old setting new)
    (h' : Layered Says old setting new') : new = new' := by
  cases h with
  | set h => exact hSays _ _ _ h (some_iff.1 h')
  | keep => exact (none_iff.1 h').symm

theorem eq_iff {o : Option α} : Layered Eq old o new ↔ o.getD old = new := by
  cases o with
  | none => rw [none_iff, Option.getD_none, eq_comm]
  | some s => rw [some_iff, Option.getD_some]

end Layered

/-! ### Texts that name a setting -/

/-- The text is the name of the severity, in upper or lower case. -/
def Severity.IsNamedBy (text : String) (s : Severity) : Prop :=
  Text.eqIgnoringAsciiCase text s.name = true

def UnknownKinds.IsNamedBy (text : String) (k : UnknownKinds) : Prop := text = k.name

/-- The text can be read as a pattern. -/
def Glob.IsPattern (text : String) : Prop := ∃ parts, Glob.parse text = .ok parts

theorem Severity.ofName?_eq_some_iff {text : String} {s : Severity} :
    Severity.ofName? text = some s ↔ text = s.name := by
  constructor
  · intro h
    have hname := List.find?_some h
    exact (of_decide_eq_true hname).symm
  · intro h
    exact h ▸ Severity.ofName?_name s

theorem Severity.parse_eq_ok_iff {text : String} {s : Severity} :
    Severity.parse text = .ok s ↔ s.IsNamedBy text := by
  have hlower : Text.asciiLower s.name = s.name := by cases s <;> decide
  rw [IsNamedBy, Text.eqIgnoringAsciiCase, beq_iff_eq, hlower, ← ofName?_eq_some_iff, parse]
  cases Severity.ofName? (Text.asciiLower text) <;> simp

theorem UnknownKinds.parse_eq_ok_iff {text : String} {k : UnknownKinds} :
    UnknownKinds.parse text = .ok k ↔ k.IsNamedBy text := by
  unfold UnknownKinds.parse UnknownKinds.IsNamedBy
  split
  · cases k <;> simp_all [UnknownKinds.name]
  · split
    · cases k <;> simp_all [UnknownKinds.name]
    · cases k <;> simp_all [UnknownKinds.name]

theorem UnknownKinds.exists_isNamedBy_iff {text : String} :
    (∃ k : UnknownKinds, k.IsNamedBy text) ↔ text = "reject" ∨ text = "passthrough" := by
  constructor
  · intro h
    obtain ⟨k, rfl⟩ := h
    cases k with
    | reject => exact .inl rfl
    | passthrough => exact .inr rfl
  · intro h
    rcases h with rfl | rfl
    · exact ⟨.reject, rfl⟩
    · exact ⟨.passthrough, rfl⟩

theorem Severity.IsNamedBy.unique {text : String} {s t : Severity} (hs : s.IsNamedBy text)
    (ht : t.IsNamedBy text) : s = t := by
  rw [← Severity.parse_eq_ok_iff] at hs ht
  exact Except.ok.inj (hs.symm.trans ht)

theorem UnknownKinds.IsNamedBy.unique {text : String} {k l : UnknownKinds} (hk : k.IsNamedBy text)
    (hl : l.IsNamedBy text) : k = l := by
  rw [← UnknownKinds.parse_eq_ok_iff] at hk hl
  exact Except.ok.inj (hk.symm.trans hl)

/-! ### The layers of a policy -/

/-- Every text among the settings of a rule is one of its kind. -/
structure RuleConfig.IsReadable (c : RuleConfig) : Prop where
  severity : ∀ text, c.severity = some text → ∃ s : Severity, s.IsNamedBy text
  allow : ∀ pattern ∈ c.allow, Glob.IsPattern pattern

/-- The settings of a rule, with those of a user over the old ones. -/
structure RulePolicy.IsLayered (old : RulePolicy) (c : RuleConfig) (s : RulePolicy) : Prop where
  enabled : Layered Eq old.enabled c.enabled s.enabled
  severity : Layered (fun text new => ∃ v : Severity, new = some v ∧ v.IsNamedBy text)
    old.severity c.severity s.severity
  allow : s.allow = if c.allow = [] then old.allow else c.allow

namespace Policy

/-- Why a configuration cannot be resolved under the overrides. -/
inductive Obstacle (c : Config) (o : Overrides) : Prop where
  | failOn (text : String) (h : o.failOn.or c.failOn = some text)
    (hnone : ∀ s : Severity, ¬s.IsNamedBy text)
  | workers (h : o.workers.or c.workers = some 0)
  | unknownKinds (text : String) (h : c.unknownKinds = some text)
    (hnone : text ≠ "reject" ∧ text ≠ "passthrough")
  | unknownRule (key : String) (r : RuleConfig) (h : c.rules.get? key = some r)
    (hunknown : key ∉ RuleKey.all)
  | ruleSeverity (key : String) (r : RuleConfig) (h : c.rules.get? key = some r) (text : String)
    (hseverity : r.severity = some text) (hnone : ∀ s : Severity, ¬s.IsNamedBy text)
  | allowGlob (key : String) (r : RuleConfig) (h : c.rules.get? key = some r) (pattern : String)
    (hallow : pattern ∈ r.allow) (hpattern : ¬Glob.IsPattern pattern)

/-- The policy of the overrides over the configuration over the preset of the profile that wins. -/
structure IsLayered (c : Config) (o : Overrides) (p : Policy) : Prop where
  profile : Layered Eq "strict" (o.profile.or c.profile) p.profile
  failOn : Layered Severity.IsNamedBy (preset p.profile).failOn (o.failOn.or c.failOn) p.failOn
  workers : Layered (fun n new => new = some n) (preset p.profile).workers
    (o.workers.or c.workers) p.workers
  unknownKinds : Layered UnknownKinds.IsNamedBy (preset p.profile).unknownKinds c.unknownKinds
    p.unknownKinds
  requiredLabels : Layered Eq (preset p.profile).requiredLabels c.requiredLabels p.requiredLabels
  /-- A rule that the preset has no settings for starts from the default ones. -/
  mentioned : ∀ key r, c.rules.get? key = some r → ∃ s, p.rules.get? key = some s ∧
    RulePolicy.IsLayered (((preset p.profile).rules.get? key).getD {}) r s
  unmentioned : ∀ key, c.rules.get? key = none →
    p.rules.get? key = (preset p.profile).rules.get? key

@[simp] theorem profile_preset (profile : String) : (preset profile).profile = profile := by
  unfold preset
  split
  · rename_i h
    exact h.symm
  · rfl

/-! ### Reading one setting -/

variable {α ε δ : Type} {old new : α} {setting : Option String} {parse : String → Except ε α}
  {wrap : ε → δ}

theorem override_eq_ok_iff {Says : String → α → Prop}
    (hparse : ∀ text v, parse text = .ok v ↔ Says text v) :
    override old setting parse wrap = .ok new ↔ Layered Says old setting new := by
  cases setting with
  | none => simp [override, eq_comm]
  | some text => rw [override, mapError_eq_ok_iff, hparse, Layered.some_iff]

theorem readWorkers_eq_ok_iff {old new : Option Nat} {setting : Option Nat} :
    readWorkers old setting = .ok new ↔
      setting ≠ some 0 ∧ Layered (fun n new => new = some n) old setting new := by
  match setting with
  | none => simp [readWorkers, eq_comm]
  | some 0 => simp [readWorkers]
  | some (n + 1) => simp [readWorkers, eq_comm]

theorem checkAllowList_eq_ok_iff {key : String} {allow : List String} :
    checkAllowList key allow = .ok () ↔ ∀ pattern ∈ allow, Glob.IsPattern pattern := by
  rw [checkAllowList, forM_eq_ok_iff]
  refine forall₂_congr fun pattern _ => ?_
  unfold Glob.IsPattern
  cases Glob.parse pattern <;>
    simp [Except.mapError, SeqRight.seqRight, Except.bind]

theorem layer_eq_ok_iff {old s : RulePolicy} {key : String} {c : RuleConfig} :
    layer old key c = .ok s ↔
      old.IsLayered c s ∧ ∀ pattern ∈ c.allow, Glob.IsPattern pattern := by
  have hparse (text : String) (v : Option Severity) :
      (Severity.parse text).map some = .ok v ↔ ∃ w : Severity, v = some w ∧ w.IsNamedBy text := by
    rw [map_eq_ok_iff]
    refine exists_congr fun w => ?_
    rw [Severity.parse_eq_ok_iff, and_comm, eq_comm]
  simp only [layer, bind_eq_ok_iff, pure_eq_ok_iff, override_eq_ok_iff hparse, List.isEmpty_iff]
  constructor
  · intro h
    obtain ⟨severity, hseverity, ⟨⟩, hallow, rfl⟩ := h
    exact ⟨⟨Layered.eq_iff.2 rfl, hseverity, rfl⟩, checkAllowList_eq_ok_iff.1 hallow⟩
  · intro h
    obtain ⟨⟨henabled, hseverity, hlist⟩, hallow⟩ := h
    refine ⟨s.severity, hseverity, (), checkAllowList_eq_ok_iff.2 hallow, ?_⟩
    rw [Layered.eq_iff.1 henabled, ← hlist]

/-- Whether the settings of a rule can be layered does not depend on what is below them. -/
theorem exists_layer_iff {old : RulePolicy} {key : String} {c : RuleConfig} :
    (∃ s, layer old key c = .ok s) ↔ c.IsReadable := by
  simp only [layer_eq_ok_iff]
  constructor
  · intro h
    obtain ⟨s, hs, hallow⟩ := h
    refine ⟨fun text htext => ?_, hallow⟩
    obtain ⟨-, v, -, hv⟩ := Layered.exists_iff.1 ⟨_, hs.severity⟩ text htext
    exact ⟨v, hv⟩
  · intro h
    have hseverity : ∃ new, Layered (fun text new => ∃ v : Severity, new = some v ∧
        v.IsNamedBy text) old.severity c.severity new := by
      apply Layered.exists_iff.2
      intro text htext
      obtain ⟨v, hv⟩ := h.severity text htext
      exact ⟨some v, v, rfl, hv⟩
    obtain ⟨severity, hseverity⟩ := hseverity
    exact ⟨⟨_, severity, _⟩, ⟨Layered.eq_iff.2 rfl, hseverity, rfl⟩, h.allow⟩

/-! ### The settings of all rules -/

theorem layerRule_eq_ok_iff {rules rules' : KeyMap RulePolicy} {e : String × RuleConfig} :
    layerRule rules e = .ok rules' ↔ e.1 ∈ RuleKey.all ∧
      ∃ s, layer ((rules.get? e.1).getD {}) e.1 e.2 = .ok s ∧ rules.insert e.1 s = rules' := by
  unfold layerRule
  by_cases hknown : e.1 ∈ RuleKey.all
  · rw [if_pos (List.contains_iff_mem.2 hknown)]
    simp [hknown]
  · rw [if_neg (mt List.contains_iff_mem.1 hknown)]
    simp [hknown]

/-- The settings of rules with distinct keys are layered one by one, each over what was there at the
start. -/
theorem foldlM_layerRule_eq_ok_iff {entries : List (String × RuleConfig)}
    (hn : (entries.map Prod.fst).Nodup) {rules rules' : KeyMap RulePolicy} :
    entries.foldlM layerRule rules = .ok rules' ↔
      (∀ e ∈ entries, e.1 ∈ RuleKey.all ∧ ∃ s,
        layer ((rules.get? e.1).getD {}) e.1 e.2 = .ok s ∧ rules'.get? e.1 = some s) ∧
      ∀ key, key ∉ entries.map Prod.fst → rules'.get? key = rules.get? key := by
  induction entries generalizing rules with
  | nil =>
    have hext : rules = rules' ↔ ∀ key, rules'.get? key = rules.get? key := by
      constructor
      · rintro rfl key
        rfl
      · intro h
        exact KeyMap.ext_get? fun key => (h key).symm
    simpa [pure_eq_ok_iff] using hext
  | cons e l ih =>
    obtain ⟨hnew, hn⟩ := List.nodup_cons.1 hn
    have hother {k : String} (hk : k ∈ l.map Prod.fst) (s : RulePolicy) :
        (rules.insert e.1 s).get? k = rules.get? k := by
      have hne : k ≠ e.1 := fun heq => hnew (heq ▸ hk)
      rw [KeyMap.get?_insert, if_neg hne]
    rw [List.foldlM_cons, bind_eq_ok_iff, List.forall_mem_cons]
    simp only [layerRule_eq_ok_iff, ih hn]
    constructor
    · intro h
      obtain ⟨-, ⟨hknown, s, hs, rfl⟩, hl, hrest⟩ := h
      refine ⟨⟨⟨hknown, s, hs, ?_⟩, fun a ha => ?_⟩, fun key hkey => ?_⟩
      · rw [hrest _ hnew, KeyMap.get?_insert_self]
      · have hlayered := hl a ha
        rwa [hother (List.mem_map_of_mem ha)] at hlayered
      · obtain ⟨hne, hkey⟩ := not_or.1 (mt List.mem_cons.2 hkey)
        rw [hrest key hkey, KeyMap.get?_insert, if_neg hne]
    · intro h
      obtain ⟨⟨⟨hknown, s, hs, hget⟩, hl⟩, hrest⟩ := h
      refine ⟨_, ⟨hknown, s, hs, rfl⟩, fun a ha => ?_, fun key hkey => ?_⟩
      · rw [hother (List.mem_map_of_mem ha)]
        exact hl a ha
      · rw [KeyMap.get?_insert]
        split
        · rename_i heq
          rw [heq, hget]
        · rename_i hne
          exact hrest key (mt List.mem_cons.1 (not_or.2 ⟨hne, hkey⟩))

theorem exists_foldlM_layerRule_iff {c : Config} {rules : KeyMap RulePolicy} :
    (∃ rules', c.rules.entries.foldlM layerRule rules = .ok rules') ↔
      ∀ key r, c.rules.get? key = some r → key ∈ RuleKey.all ∧ r.IsReadable := by
  have hstep (rules : KeyMap RulePolicy) (e : String × RuleConfig) :
      (∃ rules', layerRule rules e = .ok rules') ↔ e.1 ∈ RuleKey.all ∧ e.2.IsReadable := by
    simp only [layerRule_eq_ok_iff]
    constructor
    · intro h
      obtain ⟨-, hknown, s, hs, -⟩ := h
      exact ⟨hknown, exists_layer_iff.1 ⟨s, hs⟩⟩
    · intro h
      obtain ⟨hknown, hreadable⟩ := h
      obtain ⟨s, hs⟩ := exists_layer_iff.2 hreadable
      exact ⟨_, hknown, s, hs, rfl⟩
  rw [exists_foldlM_eq_ok_iff hstep, Prod.forall]
  simp only [KeyMap.mem_entries_iff]

/-! ### The whole policy -/

/-- Every setting that counts is one of its kind. -/
structure Readable (c : Config) (o : Overrides) : Prop where
  failOn : ∀ text, o.failOn.or c.failOn = some text → ∃ s : Severity, s.IsNamedBy text
  workers : o.workers.or c.workers ≠ some 0
  unknownKinds : ∀ text, c.unknownKinds = some text → ∃ k : UnknownKinds, k.IsNamedBy text
  rules : ∀ key r, c.rules.get? key = some r → key ∈ RuleKey.all ∧ r.IsReadable

theorem Readable.not_obstacle {c : Config} {o : Overrides} (h : Readable c o) :
    ¬Obstacle c o := by
  intro hobstacle
  cases hobstacle with
  | failOn text htext hnone =>
    obtain ⟨s, hs⟩ := h.failOn text htext
    exact hnone s hs
  | workers hzero => exact h.workers hzero
  | unknownKinds text htext hnone =>
    obtain ⟨k, hk⟩ := h.unknownKinds text htext
    exact not_or.2 hnone (UnknownKinds.exists_isNamedBy_iff.1 ⟨k, hk⟩)
  | unknownRule key r hr hunknown => exact hunknown (h.rules key r hr).1
  | ruleSeverity key r hr text htext hnone =>
    obtain ⟨s, hs⟩ := (h.rules key r hr).2.severity text htext
    exact hnone s hs
  | allowGlob key r hr pattern hallow hpattern =>
    exact hpattern ((h.rules key r hr).2.allow pattern hallow)

theorem readable_of_not_obstacle {c : Config} {o : Overrides} (h : ¬Obstacle c o) :
    Readable c o where
  failOn text htext := by
    by_contra hnone
    exact h (.failOn text htext (not_exists.1 hnone))
  workers hzero := h (.workers hzero)
  unknownKinds text htext := by
    by_contra hnone
    exact h (.unknownKinds text htext (not_or.1 (mt UnknownKinds.exists_isNamedBy_iff.2 hnone)))
  rules key r hr := by
    refine ⟨?_, fun text htext => ?_, fun pattern hallow => ?_⟩
    · by_contra hunknown
      exact h (.unknownRule key r hr hunknown)
    · by_contra hnone
      exact h (.ruleSeverity key r hr text htext (not_exists.1 hnone))
    · by_contra hpattern
      exact h (.allowGlob key r hr pattern hallow hpattern)

theorem resolve_eq_ok_iff {c : Config} {o : Overrides} {p : Policy} :
    resolve c o = .ok p ↔ ∃ failOn workers unknownKinds rules,
      let base := preset ((o.profile.or c.profile).getD "strict")
      Layered Severity.IsNamedBy base.failOn (o.failOn.or c.failOn) failOn ∧
      (o.workers.or c.workers ≠ some 0 ∧
        Layered (fun n new => new = some n) base.workers (o.workers.or c.workers) workers) ∧
      Layered UnknownKinds.IsNamedBy base.unknownKinds c.unknownKinds unknownKinds ∧
      c.rules.entries.foldlM layerRule base.rules = .ok rules ∧
      { base with
        failOn := failOn
        workers := workers
        unknownKinds := unknownKinds
        requiredLabels := c.requiredLabels.getD base.requiredLabels
        rules := rules } = p := by
  simp only [resolve, bind_eq_ok_iff, pure_eq_ok_iff,
    override_eq_ok_iff fun _ _ => Severity.parse_eq_ok_iff,
    override_eq_ok_iff fun _ _ => UnknownKinds.parse_eq_ok_iff, readWorkers_eq_ok_iff,
    exists_and_left]

theorem readable_of_resolve {c : Config} {o : Overrides} {p : Policy} (h : resolve c o = .ok p) :
    Readable c o := by
  obtain ⟨_, _, _, rules, hfailOn, ⟨hzero, -⟩, hunknown, hrules, -⟩ := resolve_eq_ok_iff.1 h
  exact ⟨Layered.exists_iff.1 ⟨_, hfailOn⟩, hzero, Layered.exists_iff.1 ⟨_, hunknown⟩,
    exists_foldlM_layerRule_iff.1 ⟨rules, hrules⟩⟩

theorem Readable.exists_resolve {c : Config} {o : Overrides} (h : Readable c o) :
    ∃ p, resolve c o = .ok p := by
  have hworkers : ∀ n, o.workers.or c.workers = some n → ∃ new, new = some n :=
    fun n _ => ⟨some n, rfl⟩
  obtain ⟨failOn, hfailOn⟩ := Layered.exists_iff.2 h.failOn
  obtain ⟨workers, hworkers⟩ := Layered.exists_iff.2 hworkers
  obtain ⟨unknownKinds, hunknown⟩ := Layered.exists_iff.2 h.unknownKinds
  obtain ⟨rules, hrules⟩ := exists_foldlM_layerRule_iff.2 h.rules
  exact ⟨_, resolve_eq_ok_iff.2
    ⟨failOn, workers, unknownKinds, rules, hfailOn, ⟨h.workers, hworkers⟩, hunknown, hrules, rfl⟩⟩

theorem isLayered_of_resolve {c : Config} {o : Overrides} {p : Policy} (h : resolve c o = .ok p) :
    IsLayered c o p := by
  obtain ⟨failOn, workers, unknownKinds, rules, hfailOn, ⟨-, hworkers⟩, hunknown, hrules, rfl⟩ :=
    resolve_eq_ok_iff.1 h
  obtain ⟨hmentioned, hunmentioned⟩ := (foldlM_layerRule_eq_ok_iff c.rules.nodup_keys).1 hrules
  refine ⟨?_, ?_, ?_, ?_, ?_, ?_, ?_⟩
  all_goals simp only [profile_preset]
  · exact Layered.eq_iff.2 rfl
  · exact hfailOn
  · exact hworkers
  · exact hunknown
  · exact Layered.eq_iff.2 rfl
  · intro key r hr
    obtain ⟨-, s, hs, hget⟩ := hmentioned (key, r) (KeyMap.mem_entries_iff.2 hr)
    exact ⟨s, hget, (layer_eq_ok_iff.1 hs).1⟩
  · intro key hkey
    apply hunmentioned
    rw [← KeyMap.keys, KeyMap.mem_keys_iff, KeyMap.contains, hkey]
    exact Bool.false_ne_true

end Policy

theorem RulePolicy.IsLayered.unique {old s t : RulePolicy} {c : RuleConfig}
    (hs : old.IsLayered c s) (ht : old.IsLayered c t) : s = t := by
  have hsays (text : String) (v w : Option Severity)
      (hv : ∃ a : Severity, v = some a ∧ a.IsNamedBy text)
      (hw : ∃ a : Severity, w = some a ∧ a.IsNamedBy text) : v = w := by
    obtain ⟨a, rfl, ha⟩ := hv
    obtain ⟨b, rfl, hb⟩ := hw
    rw [ha.unique hb]
  have henabled := Layered.unique (fun _ _ _ h h' => h.symm.trans h') hs.enabled ht.enabled
  have hseverity := Layered.unique hsays hs.severity ht.severity
  have hallow := hs.allow.trans ht.allow.symm
  cases s
  cases t
  simp_all

namespace Policy

/-- The layers say everything about the policy. -/
theorem IsLayered.unique {c : Config} {o : Overrides} {p q : Policy} (hp : IsLayered c o p)
    (hq : IsLayered c o q) : p = q := by
  have hprofile : p.profile = q.profile :=
    Layered.unique (fun _ _ _ h h' => h.symm.trans h') hp.profile hq.profile
  obtain ⟨-, hfailOn, hworkers, hunknown, hlabels, hmentioned, hunmentioned⟩ := hp
  rw [hprofile] at hfailOn hworkers hunknown hlabels hmentioned hunmentioned
  have hrules : p.rules = q.rules := by
    apply KeyMap.ext_get?
    intro key
    cases hkey : c.rules.get? key with
    | none => rw [hunmentioned key hkey, hq.unmentioned key hkey]
    | some r =>
      obtain ⟨s, hs, hlayered⟩ := hmentioned key r hkey
      obtain ⟨t, ht, hlayered'⟩ := hq.mentioned key r hkey
      rw [hs, ht, hlayered.unique hlayered']
  have hfailOn := Layered.unique (fun _ _ _ h h' => h.unique h') hfailOn hq.failOn
  have hworkers := Layered.unique (fun _ _ _ h h' => h.trans h'.symm) hworkers hq.workers
  have hunknown := Layered.unique (fun _ _ _ h h' => h.unique h') hunknown hq.unknownKinds
  have hlabels := Layered.unique (fun _ _ _ h h' => h.symm.trans h') hlabels hq.requiredLabels
  cases p
  cases q
  simp_all

/-- Resolving fails exactly when some setting is none of its kind, and else it gives the one policy
that the layers describe. -/
theorem resolve_layers (c : Config) (o : Overrides) :
    ((∃ e, resolve c o = .error e) ↔ Obstacle c o) ∧
      ∀ p, resolve c o = .ok p ↔ ¬Obstacle c o ∧ IsLayered c o p := by
  constructor
  · constructor
    · intro h
      obtain ⟨e, he⟩ := h
      by_contra hnone
      obtain ⟨p, hp⟩ := (readable_of_not_obstacle hnone).exists_resolve
      rw [he] at hp
      cases hp
    · intro hobstacle
      cases hresolve : resolve c o with
      | error e => exact ⟨e, rfl⟩
      | ok p => exact absurd hobstacle (readable_of_resolve hresolve).not_obstacle
  · intro p
    constructor
    · intro h
      exact ⟨(readable_of_resolve h).not_obstacle, isLayered_of_resolve h⟩
    · intro h
      obtain ⟨hnone, hlayered⟩ := h
      obtain ⟨q, hq⟩ := (readable_of_not_obstacle hnone).exists_resolve
      rw [hq, hlayered.unique (isLayered_of_resolve hq)]

/-- Sets some fields of the baseline profile anew, and settings of a rule that the profile has
settings for. -/
def stagedConfig : Config where
  profile := some "baseline"
  failOn := some "low"
  unknownKinds := some "passthrough"
  rules := .ofList [
    (RuleKey.accessLoggingRecommended, { allow := ["legacy-*"] }),
    (RuleKey.versioningRequired, { enabled := some false, severity := some "LOW" })]

def stagedOverrides : Overrides := { failOn := some "Critical", workers := some 2 }

def stagedPolicy : Policy where
  profile := "baseline"
  failOn := .critical
  workers := some 2
  unknownKinds := .passthrough
  requiredLabels := recommendedLabels
  rules := .ofList [
    (RuleKey.accessLoggingRecommended, { severity := some .low, allow := ["legacy-*"] }),
    (RuleKey.versioningRequired, { enabled := false, severity := some .low })]

theorem resolve_layers_staged :
    (∃ e, resolve stagedConfig { workers := some 0 } = .error e) ∧
      resolve stagedConfig stagedOverrides = .ok stagedPolicy ∧
      IsLayered stagedConfig stagedOverrides stagedPolicy := by
  have hresolve : resolve stagedConfig stagedOverrides = .ok stagedPolicy :=
    toOption_eq_some_iff.1 (by decide +kernel)
  have hlayers := ((resolve_layers stagedConfig stagedOverrides).2 stagedPolicy).1 hresolve
  exact ⟨(resolve_layers stagedConfig { workers := some 0 }).1.2 (.workers rfl), hresolve,
    hlayers.2⟩

end Policy

end StackAudit
