-- Compiling a written rule set. It succeeds exactly if every part of it means something, and then
-- the rule set says what was written, in the same order; otherwise the fault is that of the first
-- part that means nothing. What is compiled leaves no rule without effect.
import CauseLists.Inspection.Check
import CauseLists.Proofs.FieldPath.Reach
import CauseLists.Proofs.ListType
import CauseLists.Proofs.Results
import CauseLists.RuleSet.Compile
import Mathlib.Tactic.Tauto

namespace CauseLists

/-! ## Rules -/

variable {l : Libraries}

theorem FieldPath.endsInKey_iff {p : FieldPath} :
    p.endsInKey = true ↔ ∃ holder key, p = holder ++ [.key key] := by
  unfold endsInKey
  constructor
  · intro h
    split at h
    · rename_i key hlast
      obtain ⟨holder, rfl⟩ := List.getLast?_eq_some_iff.mp hlast
      exact ⟨holder, key, rfl⟩
    · cases h
  · rintro ⟨holder, key, rfl⟩
    simp

/-- A written demand, at a path, says what a demand asks for. -/
inductive WrittenDemand.Says (l : Libraries) (path : FieldPath) : WrittenDemand → Demand → Prop
  | required : Says l path .required .required
  | dateTime : Says l path .dateTime (.format .dateTime)
  | date : Says l path .date (.format .date)
  | fixedLength (length : Nat) : Says l path (.fixedLength length) (.format (.fixedLength length))
  | pattern {source : String} {p : Pattern} (h : Pattern.compile l.regex source = .ok p) :
    Says l path (.pattern source) (.format (.pattern p))
  | initialOrEmpty : Says l path .initialOrEmpty (.format .initialOrEmpty)
  | postcode : Says l path .postcode (.format .postcode)
  | requiredWhen {text : String} {condition : FieldPath} (equals : Option Json)
    (hkey : ∃ holder key, path = holder ++ [.key key])
    (h : FieldPath.parse text = .ok condition) :
    Says l path (.requiredWhen text equals) (.requiredWhen condition equals)

namespace WrittenRule

/-- A written rule says what a rule asks for, and where. -/
structure Says (l : Libraries) (w : WrittenRule) (r : Rule) : Prop where
  path : FieldPath.parse w.path = .ok r.path
  demand : w.demand.Says l r.path r.demand

/-- What makes a written rule meaningless. Its path comes before all else. -/
inductive Fails (l : Libraries) (w : WrittenRule) : RuleFault → Prop
  | path {e : PathError} (h : FieldPath.parse w.path = .error e) : Fails l w (.badPath e)
  | pattern {path : FieldPath} {source reason : String}
    (hpath : FieldPath.parse w.path = .ok path) (hdemand : w.demand = .pattern source)
    (h : Pattern.compile l.regex source = .error reason) : Fails l w (.badPattern reason)
  | target {path : FieldPath} {text : String} {equals : Option Json}
    (hpath : FieldPath.parse w.path = .ok path) (hdemand : w.demand = .requiredWhen text equals)
    (h : ∀ holder key, path ≠ holder ++ [.key key]) : Fails l w .targetNotKey
  | condition {holder : FieldPath} {key text : String} {equals : Option Json} {e : PathError}
    (hpath : FieldPath.parse w.path = .ok (holder ++ [.key key]))
    (hdemand : w.demand = .requiredWhen text equals) (h : FieldPath.parse text = .error e) :
    Fails l w (.badPath e)

theorem compilePath_eq_ok_iff {text : String} {p : FieldPath} :
    compilePath text = .ok p ↔ FieldPath.parse text = .ok p :=
  mapError_eq_ok_iff

theorem compilePath_eq_error_iff {text : String} {fault : RuleFault} :
    compilePath text = .error fault ↔ ∃ e, FieldPath.parse text = .error e ∧ .badPath e = fault :=
  mapError_eq_error_iff

theorem demand_compile_eq_ok_iff {path : FieldPath} {w : WrittenDemand} {d : Demand} :
    w.compile l path = .ok d ↔ w.Says l path d := by
  constructor
  · intro h
    cases w with
    | pattern source =>
      simp only [WrittenDemand.compile] at h
      split at h
      · rename_i p hp
        obtain rfl := Except.ok.inj h
        exact .pattern hp
      · cases h
    | requiredWhen text equals =>
      simp only [WrittenDemand.compile] at h
      split at h
      · rename_i hkey
        obtain ⟨condition, hcondition, rfl⟩ := map_eq_ok_iff.mp h
        exact .requiredWhen equals (FieldPath.endsInKey_iff.mp hkey)
          (compilePath_eq_ok_iff.mp hcondition)
      · cases h
    | _ =>
      obtain rfl := Except.ok.inj h
      constructor
  · intro h
    cases h with
    | pattern hp => simp only [WrittenDemand.compile, hp]
    | requiredWhen equals hkey hcondition =>
      simp only [WrittenDemand.compile, FieldPath.endsInKey_iff.mpr hkey, if_true]
      exact map_eq_ok_iff.mpr ⟨_, compilePath_eq_ok_iff.mpr hcondition, rfl⟩
    | _ => rfl

theorem compile_eq_ok_iff {w : WrittenRule} {r : Rule} : w.compile l = .ok r ↔ w.Says l r := by
  unfold compile
  constructor
  · intro h
    split at h
    · cases h
    · rename_i path hpath
      split at h
      · cases h
      · rename_i demand hdemand
        obtain rfl := Except.ok.inj h
        exact ⟨compilePath_eq_ok_iff.mp hpath, demand_compile_eq_ok_iff.mp hdemand⟩
  · rintro ⟨hpath, hdemand⟩
    simp only [compilePath_eq_ok_iff.mpr hpath, demand_compile_eq_ok_iff.mpr hdemand]

theorem demand_compile_eq_error_iff {w : WrittenRule} {path : FieldPath} {fault : RuleFault}
    (hpath : FieldPath.parse w.path = .ok path) :
    w.demand.compile l path = .error fault ↔ w.Fails l fault := by
  constructor
  · intro h
    cases hdemand : w.demand with
    | pattern source =>
      simp only [hdemand, WrittenDemand.compile] at h
      split at h
      · cases h
      · rename_i reason hpattern
        obtain rfl := Except.error.inj h
        exact .pattern hpath hdemand hpattern
    | requiredWhen text equals =>
      simp only [hdemand, WrittenDemand.compile] at h
      split at h
      · rename_i hkey
        obtain ⟨holder, key, rfl⟩ := FieldPath.endsInKey_iff.mp hkey
        obtain ⟨e, he, rfl⟩ := compilePath_eq_error_iff.mp (map_eq_error_iff.mp h)
        exact .condition hpath hdemand he
      · rename_i hkey
        obtain rfl := Except.error.inj h
        refine .target hpath hdemand ?_
        rintro holder key rfl
        exact hkey (FieldPath.endsInKey_iff.mpr ⟨holder, key, rfl⟩)
    | _ =>
      rw [hdemand] at h
      cases h
  · intro h
    cases h with
    | path he =>
      rw [hpath] at he
      cases he
    | @pattern path' source fault hpath' hdemand hpattern =>
      simp only [hdemand, WrittenDemand.compile, hpattern]
    | @target path' text equals hpath' hdemand hno =>
      obtain rfl := Except.ok.inj (hpath.symm.trans hpath')
      have hkey : ¬ path.endsInKey = true := by
        rw [FieldPath.endsInKey_iff]
        rintro ⟨holder, key, hsame⟩
        exact hno holder key hsame
      simp only [hdemand, WrittenDemand.compile, if_neg hkey]
    | @condition holder key text equals e hpath' hdemand he =>
      obtain rfl := Except.ok.inj (hpath.symm.trans hpath')
      have hkey := FieldPath.endsInKey_iff.mpr ⟨holder, key, rfl⟩
      simp only [hdemand, WrittenDemand.compile, if_pos hkey]
      exact map_eq_error_iff.mpr (compilePath_eq_error_iff.mpr ⟨e, he, rfl⟩)

theorem compile_eq_error_iff {w : WrittenRule} {fault : RuleSetFault} :
    w.compile l = .error fault ↔ ∃ reason, w.Fails l reason ∧ .badRule w.path reason = fault := by
  unfold compile
  cases hpath : FieldPath.parse w.path with
  | error e =>
    rw [compilePath_eq_error_iff.mpr ⟨e, hpath, rfl⟩]
    constructor
    · intro h
      exact ⟨_, .path hpath, Except.error.inj h⟩
    · rintro ⟨reason, hfails, rfl⟩
      cases hfails with
      | path he =>
        obtain rfl := Except.error.inj (hpath.symm.trans he)
        rfl
      | pattern hpath' _ _ => cases hpath.symm.trans hpath'
      | target hpath' _ _ => cases hpath.symm.trans hpath'
      | condition hpath' _ _ => cases hpath.symm.trans hpath'
  | ok path =>
    rw [compilePath_eq_ok_iff.mpr hpath]
    simp only [← demand_compile_eq_error_iff hpath]
    cases w.demand.compile l path <;> simp

/-- What a written rule has to have to mean something. -/
structure Sound (l : Libraries) (w : WrittenRule) : Prop where
  path : ∃ p, FieldPath.parse w.path = .ok p
  pattern : ∀ source, w.demand = .pattern source → ∃ p, Pattern.compile l.regex source = .ok p
  /-- Only a member of an object can be required on a condition. -/
  target : ∀ text equals, w.demand = .requiredWhen text equals →
    ∃ holder key, FieldPath.parse w.path = .ok (holder ++ [.key key])
  condition : ∀ text equals, w.demand = .requiredWhen text equals →
    ∃ condition, FieldPath.parse text = .ok condition

theorem sound_iff {w : WrittenRule} : w.Sound l ↔ ∀ reason, ¬ w.Fails l reason := by
  constructor
  · intro h reason hfails
    cases hfails with
    | path he =>
      obtain ⟨p, hp⟩ := h.path
      cases hp.symm.trans he
    | pattern _ hdemand hpattern =>
      obtain ⟨p, hp⟩ := h.pattern _ hdemand
      cases hp.symm.trans hpattern
    | target hpath hdemand hno =>
      obtain ⟨holder, key, htarget⟩ := h.target _ _ hdemand
      exact hno holder key (Except.ok.inj (hpath.symm.trans htarget))
    | condition _ hdemand he =>
      obtain ⟨condition, hcondition⟩ := h.condition _ _ hdemand
      cases hcondition.symm.trans he
  · intro h
    cases hpath : FieldPath.parse w.path with
    | error e => exact absurd (.path hpath) (h _)
    | ok path =>
      cases hcompile : w.demand.compile l path with
      | error reason => exact absurd ((demand_compile_eq_error_iff hpath).mp hcompile) (h reason)
      | ok demand =>
        have hsays := demand_compile_eq_ok_iff.mp hcompile
        refine ⟨⟨path, hpath⟩, ?_, ?_, ?_⟩
        · intro source hdemand
          rw [hdemand] at hsays
          cases hsays with
          | pattern hp => exact ⟨_, hp⟩
        · intro text equals hdemand
          rw [hdemand] at hsays
          cases hsays with
          | requiredWhen _ hkey _ =>
            obtain ⟨holder, key, rfl⟩ := hkey
            exact ⟨holder, key, hpath⟩
        · intro text equals hdemand
          rw [hdemand] at hsays
          cases hsays with
          | requiredWhen _ _ hcondition => exact ⟨_, hcondition⟩

end WrittenRule

/-- A rule that is applied: if it requires a member on a condition, it looks at every holder that
may have the member. -/
def Rule.InEffect (r : Rule) : Prop :=
  ∀ condition equals, r.demand = .requiredWhen condition equals →
    ∃ (holder : FieldPath) (key : String), r.path = holder ++ [.key key] ∧
      ∀ mode anchor location, r.findings mode anchor location =
        (holder.resolveFrom anchor location).flatMap
          (conditionEnding mode r.label key condition equals)

theorem WrittenRule.Says.inEffect {w : WrittenRule} {r : Rule} (h : w.Says l r) : r.InEffect := by
  intro condition equals hdemand
  have hsays := h.demand
  rw [hdemand] at hsays
  generalize w.demand = written at hsays
  cases hsays with
  | requiredWhen _ hkey _ =>
    obtain ⟨holder, key, hpath⟩ := hkey
    refine ⟨holder, key, hpath, ?_⟩
    intro mode anchor location
    have hsplit := (FieldPath.splitLast?_eq_some_iff r.path holder (.key key)).mpr hpath
    simp only [Rule.findings, hdemand, hsplit]

/-! ## Parts of a rule set -/

/-- A part of a written rule set that may mean nothing. -/
inductive WrittenPart
  | anchor (text : String)
  | rule (rule : WrittenRule)
  /-- The base rules as a whole, of which there has to be one. -/
  | baseRules (rules : List WrittenRule)
  | schema (source : Json)

namespace WrittenPart

/-- What makes a part meaningless. -/
inductive Fails (l : Libraries) : WrittenPart → RuleSetFault → Prop
  | anchor {text : String} {e : PathError} (h : FieldPath.parse text = .error e) :
    Fails l (.anchor text) (.badAnchor e)
  | rule {w : WrittenRule} {reason : RuleFault} (h : w.Fails l reason) :
    Fails l (.rule w) (.badRule w.path reason)
  | baseRules : Fails l (.baseRules []) .noRules
  | schema {source : Json} {reason : String}
    (h : SchemaDocument.compile l.schema source = .error reason) :
    Fails l (.schema source) (.badSchema reason)

/-- A part that means something. -/
def Passes (l : Libraries) (part : WrittenPart) : Prop := ∀ fault, ¬ part.Fails l fault

/-- How the message of a fault begins that is found in a part. -/
def naming : WrittenPart → String
  | .anchor text => "invalid field path \"" ++ text ++ "\": "
  | .rule w => "rule at \"" ++ w.path ++ "\": "
  | .baseRules _ => "rule set declares no rules"
  | .schema _ => "strict schema: "

theorem Fails.message {part : WrittenPart} {fault : RuleSetFault} (h : part.Fails l fault) :
    ∃ reason, fault.message = part.naming ++ reason := by
  cases h with
  | @anchor text e h =>
    have hpath : e.path = text := by
      unfold FieldPath.parse at h
      split at h
      · cases h
      · obtain rfl := Except.error.inj h
        rfl
    subst hpath
    exact ⟨e.fault.message, rfl⟩
  | rule h => exact ⟨_, rfl⟩
  | baseRules => exact ⟨"", rfl⟩
  | schema h => exact ⟨_, rfl⟩

/-- The first part that means nothing, in a row of parts, has a fault. -/
def FirstFails (l : Libraries) (parts : List WrittenPart) (fault : RuleSetFault) : Prop :=
  ∃ before part after, parts = before ++ part :: after ∧ (∀ p ∈ before, p.Passes l) ∧
    part.Fails l fault

theorem passes_anchor_iff {text : String} :
    (anchor text).Passes l ↔ ∃ p, FieldPath.parse text = .ok p := by
  constructor
  · intro h
    cases hparse : FieldPath.parse text with
    | error e => exact absurd (.anchor hparse) (h _)
    | ok p => exact ⟨p, rfl⟩
  · rintro ⟨p, hp⟩ fault hfails
    cases hfails with
    | anchor he => cases hp.symm.trans he

theorem passes_rule_iff {w : WrittenRule} : (rule w).Passes l ↔ w.Sound l := by
  rw [WrittenRule.sound_iff]
  constructor
  · intro h reason hfails
    exact h _ (.rule hfails)
  · intro h fault hfails
    cases hfails with
    | rule hfails => exact h _ hfails

theorem passes_baseRules_iff {rules : List WrittenRule} :
    (baseRules rules).Passes l ↔ rules ≠ [] := by
  constructor
  · rintro h rfl
    exact h _ .baseRules
  · rintro h fault ⟨⟩
    exact h rfl

theorem passes_schema_iff {source : Json} :
    (schema source).Passes l ↔ ∃ schema, SchemaDocument.compile l.schema source = .ok schema := by
  constructor
  · intro h
    cases hschema : SchemaDocument.compile l.schema source with
    | error reason => exact absurd (.schema hschema) (h _)
    | ok compiled => exact ⟨compiled, rfl⟩
  · rintro ⟨compiled, hschema⟩ fault hfails
    cases hfails with
    | schema hnone => cases hschema.symm.trans hnone

variable {fault : RuleSetFault}

theorem not_firstFails_nil : ¬ FirstFails l [] fault := by
  rintro ⟨before, part, after, hparts, -⟩
  cases before <;> cases hparts

theorem firstFails_cons {part : WrittenPart} {rest : List WrittenPart} :
    FirstFails l (part :: rest) fault ↔
      part.Fails l fault ∨ part.Passes l ∧ FirstFails l rest fault := by
  constructor
  · rintro ⟨before, first, after, hparts, hbefore, hfails⟩
    cases before with
    | nil =>
      obtain ⟨rfl, rfl⟩ := List.cons.inj hparts
      exact .inl hfails
    | cons p before =>
      obtain ⟨rfl, rfl⟩ := List.cons.inj hparts
      obtain ⟨hpasses, hbefore⟩ := List.forall_mem_cons.mp hbefore
      exact .inr ⟨hpasses, before, first, after, rfl, hbefore, hfails⟩
  · rintro (hfails | ⟨hpasses, before, first, after, rfl, hbefore, hfails⟩)
    · exact ⟨[], part, rest, rfl, by simp, hfails⟩
    · exact ⟨part :: before, first, after, rfl, List.forall_mem_cons.mpr ⟨hpasses, hbefore⟩, hfails⟩

theorem firstFails_append {parts more : List WrittenPart} :
    FirstFails l (parts ++ more) fault ↔
      FirstFails l parts fault ∨ (∀ p ∈ parts, p.Passes l) ∧ FirstFails l more fault := by
  induction parts with
  | nil => simp [not_firstFails_nil]
  | cons part rest ih =>
    rw [List.cons_append, firstFails_cons, firstFails_cons, ih, List.forall_mem_cons]
    tauto

theorem forall_passes_iff {parts : List WrittenPart} :
    (∀ p ∈ parts, p.Passes l) ↔ ∀ fault, ¬ FirstFails l parts fault := by
  induction parts with
  | nil => simp [not_firstFails_nil]
  | cons part rest ih =>
    simp only [List.forall_mem_cons, ih, firstFails_cons, not_or, forall_and]
    unfold Passes
    tauto

/-- A stage looks at some parts: it succeeds if all of them pass, and its fault is otherwise that of
the first one that fails. -/
def Judged {α : Type} (l : Libraries) (parts : List WrittenPart) (stage : Except RuleSetFault α) :
    Prop :=
  ∀ fault, stage = .error fault ↔ FirstFails l parts fault

namespace Judged

variable {α β : Type} {parts more : List WrittenPart} {stage : Except RuleSetFault α}

theorem ok_iff (h : Judged l parts stage) : (∃ a, stage = .ok a) ↔ ∀ p ∈ parts, p.Passes l := by
  simp only [forall_passes_iff, ← h _]
  cases stage <;> simp

theorem done (a : α) : Judged l [] (.ok a) := by
  intro fault
  simp [not_firstFails_nil]

theorem one {part : WrittenPart} (h : ∀ fault, stage = .error fault ↔ part.Fails l fault) :
    Judged l [part] stage := by
  intro fault
  simp [firstFails_cons, not_firstFails_nil, h fault]

theorem bind {next : α → Except RuleSetFault β} (h : Judged l parts stage)
    (hnext : ∀ a, stage = .ok a → Judged l more (next a)) :
    Judged l (parts ++ more) (stage >>= next) := by
  intro fault
  rw [bind_eq_error_iff, firstFails_append, h fault, ← h.ok_iff]
  constructor
  · rintro (hfails | ⟨a, ha, hfails⟩)
    · exact .inl hfails
    · exact .inr ⟨⟨a, ha⟩, (hnext a ha fault).mp hfails⟩
  · rintro (hfails | ⟨⟨a, ha⟩, hfails⟩)
    · exact .inl hfails
    · exact .inr ⟨a, ha, (hnext a ha fault).mpr hfails⟩

/-- Parts of one sort are looked at one after another. -/
theorem mapM {part : α → WrittenPart} {stage : α → Except RuleSetFault β}
    (h : ∀ a, Judged l [part a] (stage a)) (as : List α) :
    Judged l (as.map part) (as.mapM stage) := by
  induction as with
  | nil => exact done []
  | cons a rest ih =>
    rw [List.mapM_cons, List.map_cons]
    have hrest (b : β) :
        Judged l (rest.map part) (rest.mapM stage >>= fun bs => .ok (b :: bs)) := by
      have hdone := ih.bind fun bs _ => done (b :: bs)
      rwa [List.append_nil] at hdone
    exact (h a).bind fun b _ => hrest b

end Judged

end WrittenPart

/-! ## Rule sets -/

theorem compileRules_eq (rules : List WrittenRule) :
    compileRules l rules = rules.mapM (WrittenRule.compile l) := by
  induction rules with
  | nil => rfl
  | cons r rest ih => rw [compileRules, List.mapM_cons, ih]

theorem compileAnchors_eq (texts : List String) : compileAnchors texts =
    texts.mapM (fun text => (FieldPath.parse text).mapError .badAnchor) := by
  induction texts with
  | nil => rfl
  | cons text rest ih => rw [compileAnchors, List.mapM_cons, ih]

theorem compileRules_eq_ok_iff {written : List WrittenRule} {rules : List Rule} :
    compileRules l written = .ok rules ↔ List.Forall₂ (WrittenRule.Says l) written rules := by
  simp only [compileRules_eq, mapM_eq_ok_iff, WrittenRule.compile_eq_ok_iff]

theorem compileAnchors_eq_ok_iff {texts : List String} {anchors : List FieldPath} :
    compileAnchors texts = .ok anchors ↔
      List.Forall₂ (fun text p => FieldPath.parse text = .ok p) texts anchors := by
  simp only [compileAnchors_eq, mapM_eq_ok_iff, mapError_eq_ok_iff]

theorem compileSchema_eq_ok_iff {source : Option Json} {schema : Option SchemaDocument} :
    compileSchema l.schema source = .ok schema ↔ source.map (SchemaDocument.compile l.schema) =
      schema.map .ok := by
  cases source with
  | none =>
    cases schema <;> simp [compileSchema]
  | some source =>
    unfold compileSchema
    cases hschema : SchemaDocument.compile l.schema source with
    | error reason => cases schema <;> simp [hschema]
    | ok compiled => cases schema <;> simp [hschema]

open WrittenPart (Judged)

theorem judged_compileRules (written : List WrittenRule) :
    Judged l (written.map .rule) (compileRules l written) := by
  rw [compileRules_eq]
  refine Judged.mapM (fun w => .one fun fault => ?_) written
  rw [WrittenRule.compile_eq_error_iff]
  constructor
  · rintro ⟨reason, hfails, rfl⟩
    exact .rule hfails
  · rintro ⟨⟩
    exact ⟨_, ‹_›, rfl⟩

theorem judged_compileAnchors (texts : List String) :
    Judged l (texts.map .anchor) (compileAnchors texts) := by
  rw [compileAnchors_eq]
  refine Judged.mapM (fun text => .one fun fault => ?_) texts
  rw [mapError_eq_error_iff]
  constructor
  · rintro ⟨e, he, rfl⟩
    exact .anchor he
  · rintro ⟨⟩
    exact ⟨_, ‹_›, rfl⟩

theorem judged_compileSchema (source : Option Json) :
    Judged l (source.toList.map .schema) (compileSchema l.schema source) := by
  cases source with
  | none => exact .done none
  | some source =>
    refine .one fun fault => ?_
    cases hschema : SchemaDocument.compile l.schema source with
    | error reason =>
      simp only [compileSchema, hschema, Except.error.injEq]
      constructor
      · rintro rfl
        exact .schema hschema
      · intro hfails
        cases hfails with
        | schema herror =>
          obtain rfl := Except.error.inj (hschema.symm.trans herror)
          rfl
    | ok compiled =>
      simp only [compileSchema, hschema, reduceCtorEq, false_iff]
      intro hfails
      cases hfails with
      | schema herror => cases hschema.symm.trans herror

namespace WrittenRuleSet

/-- The rules of the section for strict mode. -/
def strictRules (s : WrittenRuleSet) : List WrittenRule := s.strict.elim [] WrittenStrict.rules

/-- The schema of the section for strict mode. -/
def schemaSource (s : WrittenRuleSet) : Option Json := s.strict.bind WrittenStrict.schema

/-- The parts of a rule set, in the order in which they are looked at. -/
def parts (s : WrittenRuleSet) : List WrittenPart :=
  s.anchors.map .anchor ++ (s.rules.map .rule ++ (.baseRules s.rules ::
    (s.strictRules.map .rule ++ s.schemaSource.toList.map .schema)))

/-- The look at the base rules as a whole, once they are compiled. -/
def compileSome (rules : List Rule) : Except RuleSetFault Unit :=
  if rules.isEmpty then .error .noRules else .ok ()

theorem compile_eq (s : WrittenRuleSet) : s.compile l = (do
    let anchors ← compileAnchors s.anchors
    let rules ← compileRules l s.rules
    let _ ← compileSome rules
    let strictRules ← compileRules l s.strictRules
    let schema ← compileSchema l.schema s.schemaSource
    return ⟨s.listType, anchors, rules, strictRules, schema⟩) := by
  have hstrict : compileStrict l s.strict = (do
      let rules ← compileRules l s.strictRules
      let schema ← compileSchema l.schema s.schemaSource
      return (rules, schema)) := by
    unfold strictRules schemaSource
    cases s.strict <;> rfl
  unfold compile compileSome
  rw [hstrict]
  cases compileAnchors s.anchors with
  | error fault => rfl
  | ok anchors =>
    cases compileRules l s.rules with
    | error fault => rfl
    | ok rules =>
      cases rules with
      | nil => rfl
      | cons r rest =>
        cases compileRules l s.strictRules with
        | error fault => rfl
        | ok strictRules => cases compileSchema l.schema s.schemaSource <;> rfl

theorem judged_compileSome {written : List WrittenRule} {rules : List Rule}
    (h : compileRules l written = .ok rules) :
    Judged l [.baseRules written] (compileSome rules) := by
  -- As many rules are compiled as are written.
  have hlength := (compileRules_eq_ok_iff.mp h).length_eq
  apply Judged.one
  intro fault
  unfold compileSome
  cases rules with
  | nil =>
    rw [List.length_eq_zero_iff.mp hlength]
    constructor
    · rintro ⟨⟩
      exact .baseRules
    · rintro ⟨⟩
      rfl
  | cons r rest =>
    constructor
    · rintro ⟨⟩
    · rintro ⟨⟩
      cases hlength

theorem judged_compile (s : WrittenRuleSet) : Judged l s.parts (s.compile l) := by
  rw [compile_eq]
  refine (judged_compileAnchors s.anchors).bind fun anchors _ => ?_
  refine (judged_compileRules s.rules).bind fun rules hrules => ?_
  change Judged l ([_] ++ (_ ++ _)) _
  refine (judged_compileSome hrules).bind fun _ _ => ?_
  refine (judged_compileRules s.strictRules).bind fun strictRules _ => ?_
  have hschema := (judged_compileSchema (l := l) s.schemaSource).bind fun schema _ =>
    Judged.done (RuleSet.mk s.listType anchors rules strictRules schema)
  rwa [List.append_nil] at hschema

/-- What a written rule set has to have to mean something. -/
structure Sound (l : Libraries) (s : WrittenRuleSet) : Prop where
  anchors : ∀ text ∈ s.anchors, ∃ p, FieldPath.parse text = .ok p
  rules : ∀ w ∈ s.rules, w.Sound l
  someRule : s.rules ≠ []
  strictRules : ∀ w ∈ s.strictRules, w.Sound l
  schema : ∀ source, s.schemaSource = some source →
    ∃ schema, SchemaDocument.compile l.schema source = .ok schema

theorem sound_iff {s : WrittenRuleSet} : s.Sound l ↔ ∀ p ∈ s.parts, p.Passes l := by
  simp only [parts, List.forall_mem_append, List.forall_mem_cons, List.forall_mem_map,
    Option.mem_toList, WrittenPart.passes_anchor_iff, WrittenPart.passes_rule_iff,
    WrittenPart.passes_baseRules_iff, WrittenPart.passes_schema_iff]
  constructor
  · rintro ⟨hanchors, hrules, hsome, hstrict, hsource⟩
    exact ⟨hanchors, hrules, hsome, hstrict, hsource⟩
  · rintro ⟨hanchors, hrules, hsome, hstrict, hsource⟩
    exact ⟨hanchors, hrules, hsome, hstrict, hsource⟩

/-- A rule set says what was written: in the same order, and nothing else. -/
structure Says (l : Libraries) (s : WrittenRuleSet) (c : RuleSet) : Prop where
  listType : c.listType = s.listType
  /-- The anchors are those that are written, or the root of the document if none is. -/
  anchors : ∃ read, List.Forall₂ (fun text p => FieldPath.parse text = .ok p) s.anchors read ∧
    c.anchors = if s.anchors = [] then [[]] else read
  baseRules : List.Forall₂ (WrittenRule.Says l) s.rules c.baseRules
  strictRules : List.Forall₂ (WrittenRule.Says l) s.strictRules c.strictRules
  schema : s.schemaSource.map (SchemaDocument.compile l.schema) = c.schema.map .ok

theorem says_of_compile {s : WrittenRuleSet} {c : RuleSet} (h : s.compile l = .ok c) :
    s.Says l c := by
  rw [compile_eq] at h
  obtain ⟨anchors, hanchors, h⟩ := bind_eq_ok_iff.mp h
  obtain ⟨rules, hrules, h⟩ := bind_eq_ok_iff.mp h
  obtain ⟨-, -, h⟩ := bind_eq_ok_iff.mp h
  obtain ⟨strictRules, hstrict, h⟩ := bind_eq_ok_iff.mp h
  obtain ⟨schema, hschema, h⟩ := bind_eq_ok_iff.mp h
  obtain rfl := Except.ok.inj h
  have hread := compileAnchors_eq_ok_iff.mp hanchors
  refine ⟨rfl, ⟨anchors, hread, ?_⟩, compileRules_eq_ok_iff.mp hrules,
    compileRules_eq_ok_iff.mp hstrict, compileSchema_eq_ok_iff.mp hschema⟩
  generalize s.anchors = texts at hread ⊢
  cases hread <;> simp [RuleSet.anchors]

/-- How a written rule set is compiled: as a whole, as it is written, or not at all. -/
structure CompilesWhole (l : Libraries) (s : WrittenRuleSet) : Prop where
  succeeds : (∃ c, s.compile l = .ok c) ↔ s.Sound l
  faithful : ∀ c, s.compile l = .ok c → s.Says l c
  /-- No rule is passed over when documents are checked. -/
  inEffect : ∀ c, s.compile l = .ok c → ∀ mode, ∀ r ∈ c.rules mode, r.InEffect
  /-- The fault is that of the first part that has one. -/
  fails : ∀ fault, s.compile l = .error fault ↔ WrittenPart.FirstFails l s.parts fault
  /-- The message of a fault names the part that has it. -/
  named : ∀ fault, s.compile l = .error fault →
    ∃ part ∈ s.parts, part.Fails l fault ∧ ∃ reason, fault.message = part.naming ++ reason

theorem a_rule_set_is_compiled_whole_or_not_at_all (l : Libraries) (s : WrittenRuleSet) :
    s.CompilesWhole l where
  succeeds := by rw [sound_iff, s.judged_compile.ok_iff]
  faithful := fun _ h => says_of_compile h
  inEffect := by
    intro c h mode r hr
    have hsays := says_of_compile h
    have hmem : r ∈ c.baseRules ∨ r ∈ c.strictRules := by
      cases mode with
      | basic => exact .inl hr
      | strict => exact List.mem_append.mp hr
    rcases hmem with hbase | hstrict
    · obtain ⟨w, -, hw⟩ := exists_of_mem_right hsays.baseRules hbase
      exact hw.inEffect
    · obtain ⟨w, -, hw⟩ := exists_of_mem_right hsays.strictRules hstrict
      exact hw.inEffect
  fails := s.judged_compile
  named := by
    intro fault h
    obtain ⟨before, part, after, hparts, -, hfails⟩ := (s.judged_compile fault).mp h
    exact ⟨part, by simp [hparts], hfails, hfails.message⟩

/-- Of two rules that mean nothing, the first is reported. -/
example (l : Libraries) :
    WrittenRuleSet.compile l ⟨⟨"DAILY_LIST", ListType.isCanonical_daily⟩, ["hearings"],
      [⟨"hearings[*]", .requiredWhen "urn" none⟩, ⟨"day..", .date⟩], none⟩ =
        .error (.badRule "hearings[*]" .targetNotKey) := by rfl

end WrittenRuleSet

end CauseLists
