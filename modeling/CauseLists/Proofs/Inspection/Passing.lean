-- What it means to pass. A document passes a rule set if every anchor leads to nodes, every rule
-- holds of those nodes and the schema has nothing to say; this is put in terms of what paths reach,
-- with no word of findings. The report on a document is empty exactly if the document passes.
import CauseLists.Inspection.Check
import CauseLists.Proofs.FieldPath.Reach
import CauseLists.Proofs.Inspection.Report
import CauseLists.Proofs.Json.Controls

namespace CauseLists

/-! ## What is asked -/

/-- A node that will do where one has to be. -/
def Json.Suffices (mode : Mode) (node : Json) : Prop :=
  node ≠ .null ∧ node ≠ .array [] ∧
    (mode = .strict → ∀ text, node = .string text → ∃ c ∈ text.toList, Text.isBlank c = false)

/-- A holder in which a member is required: the condition leads to some node that is not null,
and that is equal to a value if one is given. -/
def ConditionMet (condition : FieldPath) (equals : Option Json) (holder : Json) : Prop :=
  ∃ node, condition.Reaches holder node ∧ node ≠ .null ∧
    ∀ value, equals = some value → node.same value = true

/-- A rule holds under an anchor. -/
def Rule.Holds (r : Rule) (mode : Mode) (anchor : Json) : Prop :=
  match r.demand with
  | .required => r.path.Always (Json.Suffices mode) anchor
  | .format format =>
    ∀ node, r.path.Reaches anchor node → node ≠ .null → format.check node = .ok ()
  | .requiredWhen condition equals =>
    ∀ (path : FieldPath) (key : String), r.path = path ++ [.key key] →
      ∀ holder, path.Reaches anchor holder → ConditionMet condition equals holder →
      ∃ member, holder.member? key = some member ∧ member.Suffices mode

/-- A document, free of control characters, passes a rule set. -/
structure RuleSet.Passes (s : RuleSet) (mode : Mode) (document : Json) : Prop where
  anchors : ∀ a ∈ s.anchors, a.Always (fun node => node ≠ .null) document
  rules : ∀ a ∈ s.anchors, ∀ anchor, a.Reaches document anchor →
    ∀ r ∈ s.rules mode, r.Holds mode anchor
  schema : mode = .strict → ∀ schema, s.schema = some schema → schema.issues document = []

/-! ## Single endings -/

theorem Json.isNull_iff (node : Json) : node.isNull = true ↔ node = .null := by
  cases node <;> simp [Json.isNull]

theorem lack?_eq_none_iff (mode : Mode) (node : Json) :
    lack? mode node = none ↔ node.Suffices mode := by
  cases node with
  | null => simp [lack?, Json.Suffices]
  | bool _ => simp [lack?, Json.Suffices]
  | number _ => simp [lack?, Json.Suffices]
  | string s =>
    cases mode <;> simp [lack?, Json.Suffices, Mode.isStrict, Text.isBlankText]
  | array items => cases items <;> simp [lack?, Json.Suffices]
  | object _ => simp [lack?, Json.Suffices]

theorem requireEnding_eq_nil_iff (mode : Mode) (rule : String) (e : Ending) :
    requireEnding mode rule e = [] ↔ ∃ node, e.node? = some node ∧ node.Suffices mode := by
  cases e with
  | stopped location obstacle => simp [requireEnding, Ending.node?]
  | found location node =>
    simp only [requireEnding, Ending.node?, Option.some.injEq, exists_eq_left']
    rw [← lack?_eq_none_iff]
    cases lack? mode node <;> simp

theorem formatEnding_eq_nil_iff (format : Format) (e : Ending) :
    formatEnding format e = [] ↔
      ∀ node, e.node? = some node → node ≠ .null → format.check node = .ok () := by
  cases e with
  | stopped location obstacle => simp [formatEnding, Ending.node?]
  | found location node =>
    simp only [formatEnding, Ending.node?, Option.some.injEq, forall_eq']
    by_cases hnull : node = .null
    · simp [hnull, Json.isNull]
    · rw [if_neg (by simpa [Json.isNull_iff] using hnull)]
      cases hcheck : format.check node <;> simp [hnull]

/-! ## All branches -/

section

variable {judge : Ending → List Finding} {good : Json → Prop}

/-- Endings that have to arrive at good nodes. -/
theorem flatMap_eq_nil_iff_always
    (hjudge : ∀ e, judge e = [] ↔ ∃ node, e.node? = some node ∧ good node) (p : FieldPath)
    (node : Json) (base : FieldPath) :
    (p.resolveFrom node base).flatMap judge = [] ↔ p.Always good node := by
  rw [List.flatMap_eq_nil_iff, FieldPath.always_iff, ← FieldPath.map_node?_resolveFrom p node base,
    List.forall_mem_map]
  exact forall₂_congr (fun e _ => hjudge e)

/-- Endings that may stop, but not arrive at a node that is not good. -/
theorem flatMap_eq_nil_iff_reaches
    (hjudge : ∀ e, judge e = [] ↔ ∀ node, e.node? = some node → good node) (p : FieldPath)
    (node : Json) (base : FieldPath) :
    (p.resolveFrom node base).flatMap judge = [] ↔
      ∀ target, p.Reaches node target → good target := by
  rw [List.flatMap_eq_nil_iff]
  constructor
  · intro h target hreaches
    rw [FieldPath.reaches_iff, ← FieldPath.map_node?_resolveFrom p node base, List.mem_map]
      at hreaches
    obtain ⟨e, he, hnode⟩ := hreaches
    exact (hjudge e).mp (h e he) target hnode
  · intro h e he
    rw [hjudge]
    intro target hnode
    refine h target ?_
    rw [FieldPath.reaches_iff, ← FieldPath.map_node?_resolveFrom p node base, ← hnode]
    exact List.mem_map_of_mem he

end

/-! ## Conditions -/

theorem conditionHolds_iff (condition : FieldPath) (equals : Option Json) (holder : Json) :
    conditionHolds condition equals holder = true ↔ ConditionMet condition equals holder := by
  unfold conditionHolds ConditionMet
  rw [List.any_eq_true]
  constructor
  · rintro ⟨e, he, htest⟩
    cases e with
    | stopped location obstacle => cases htest
    | found location node =>
      rw [Bool.and_eq_true, Bool.not_eq_true', Bool.eq_false_iff] at htest
      refine ⟨node, ?_, fun hnull => htest.1 (node.isNull_iff.mpr hnull), ?_⟩
      · rw [condition.reaches_iff, ← condition.map_node?_resolveFrom holder []]
        exact List.mem_map_of_mem he
      · rintro value rfl
        exact htest.2
  · rintro ⟨node, hreaches, hnull, hequals⟩
    rw [condition.reaches_iff, ← condition.map_node?_resolveFrom holder [], List.mem_map]
      at hreaches
    obtain ⟨e, he, hnode⟩ := hreaches
    refine ⟨e, he, ?_⟩
    cases e with
    | stopped location obstacle => cases hnode
    | found location node' =>
      obtain rfl : node' = node := Option.some.inj hnode
      rw [Bool.and_eq_true, Bool.not_eq_true', Bool.eq_false_iff]
      refine ⟨fun h => hnull (node'.isNull_iff.mp h), ?_⟩
      cases equals with
      | none => rfl
      | some value => exact hequals value rfl

theorem conditionEnding_eq_nil_iff (mode : Mode) (rule key : String) (condition : FieldPath)
    (equals : Option Json) (e : Ending) :
    conditionEnding mode rule key condition equals e = [] ↔
      ∀ holder, e.node? = some holder → ConditionMet condition equals holder →
        ∃ member, holder.member? key = some member ∧ member.Suffices mode := by
  cases e with
  | stopped location obstacle => simp [conditionEnding, Ending.node?]
  | found location holder =>
    simp only [conditionEnding, Ending.node?, Option.some.injEq, forall_eq']
    rw [← conditionHolds_iff]
    split
    · rename_i hmet
      rw [flatMap_eq_nil_iff_always (requireEnding_eq_nil_iff mode rule)]
      simp [hmet, FieldPath.Always]
    · rename_i hunmet
      simp [hunmet]

/-! ## Rules -/

theorem Rule.findings_eq_nil_iff (r : Rule) (mode : Mode) (anchor : Json) (location : FieldPath) :
    r.findings mode anchor location = [] ↔ r.Holds mode anchor := by
  obtain ⟨path, demand⟩ := r
  unfold Rule.findings Rule.Holds
  cases demand with
  | required =>
    exact flatMap_eq_nil_iff_always (requireEnding_eq_nil_iff mode _) path anchor location
  | format format =>
    exact flatMap_eq_nil_iff_reaches (formatEnding_eq_nil_iff format) path anchor location
  | requiredWhen condition equals =>
    dsimp only
    split
    · rename_i holder key hsplit
      obtain rfl := (FieldPath.splitLast?_eq_some_iff path holder (.key key)).mp hsplit
      rw [flatMap_eq_nil_iff_reaches (conditionEnding_eq_nil_iff mode _ key condition equals)]
      constructor
      · intro h path other hpath
        obtain ⟨rfl, hlast⟩ := List.append_inj' hpath rfl
        obtain rfl := Segment.key.inj (List.singleton_inj.mp hlast)
        exact h
      · intro h
        exact h holder key rfl
    · rename_i hnone
      simp only [true_iff]
      rintro holder key rfl
      exact absurd ((FieldPath.splitLast?_eq_some_iff _ _ _).mpr rfl) (hnone holder key)

/-! ## Rule sets -/

namespace RuleSet

theorem anchorFindings_eq_nil_iff (s : RuleSet) (mode : Mode) (e : Ending) :
    s.anchorFindings mode e = [] ↔ ∃ node, e.node? = some node ∧
      (node ≠ .null ∧ ∀ r ∈ s.rules mode, r.Holds mode node) := by
  cases e with
  | stopped location obstacle => simp [anchorFindings, Ending.node?]
  | found location node =>
    simp only [anchorFindings, Ending.node?, Option.some.injEq, exists_eq_left']
    split
    · rename_i hnull
      simp [node.isNull_iff.mp hnull]
    · rename_i hnull
      rw [List.flatMap_eq_nil_iff]
      simp only [Rule.findings_eq_nil_iff, node.isNull_iff] at hnull ⊢
      exact (and_iff_right hnull).symm

theorem schemaIssues_eq_nil_iff (s : RuleSet) (mode : Mode) (document : Json) :
    s.schemaIssues mode document = [] ↔
      (mode = .strict → ∀ schema, s.schema = some schema → schema.issues document = []) := by
  unfold schemaIssues
  cases mode with
  | basic => simp
  | strict => cases s.schema <;> simp

/-- Nothing is found in a document exactly if it passes. -/
theorem findings_eq_nil_iff (s : RuleSet) (mode : Mode) (document : Json) :
    s.findings mode document = [] ↔ s.Passes mode document.withoutControls := by
  have hanchors : ∀ document : Json,
      s.anchors.flatMap (fun a => (a.resolve document).flatMap (s.anchorFindings mode)) = [] ↔
        ∀ a ∈ s.anchors, a.Always (fun node => node ≠ .null) document ∧
          ∀ anchor, a.Reaches document anchor → ∀ r ∈ s.rules mode, r.Holds mode anchor := by
    intro document
    rw [List.flatMap_eq_nil_iff]
    refine forall₂_congr (fun a _ => ?_)
    rw [FieldPath.resolve, flatMap_eq_nil_iff_always (s.anchorFindings_eq_nil_iff mode),
      FieldPath.always_and_iff]
  unfold findings
  rw [List.append_eq_nil_iff, hanchors, schemaIssues_eq_nil_iff, Json.cleaned_eq_withoutControls]
  constructor
  · rintro ⟨hanchored, hschema⟩
    exact ⟨fun a ha => (hanchored a ha).1, fun a ha => (hanchored a ha).2, hschema⟩
  · rintro ⟨hanchor, hrules, hschema⟩
    exact ⟨fun a ha => ⟨hanchor a ha, hrules a ha⟩, hschema⟩

/-- A report is empty exactly if the document passes. -/
theorem check_eq_nil_iff (s : RuleSet) (mode : Mode) (document : Json) :
    s.check mode document = [] ↔ s.Passes mode document.withoutControls := by
  rw [check, report_eq_nil_iff, findings_eq_nil_iff]

/-- Whatever passes in strict mode passes in basic mode. -/
theorem Passes.basic {s : RuleSet} {document : Json} (h : s.Passes .strict document) :
    s.Passes .basic document := by
  have hsuffices : ∀ {node : Json}, node.Suffices .strict → node.Suffices .basic := by
    rintro node ⟨hnull, hempty, -⟩
    exact ⟨hnull, hempty, by simp⟩
  refine ⟨h.anchors, ?_, by simp⟩
  intro a ha anchor hreaches r hr
  have hholds := h.rules a ha anchor hreaches r (List.mem_append_left _ hr)
  unfold Rule.Holds at hholds ⊢
  split
  · rename_i hdemand
    rw [hdemand] at hholds
    exact hholds.mono (fun target => hsuffices)
  · rename_i format hdemand
    rw [hdemand] at hholds
    exact hholds
  · rename_i condition equals hdemand
    rw [hdemand] at hholds
    intro path key hpath holder hholder hmet
    obtain ⟨member, hmember, hgood⟩ := hholds path key hpath holder hholder hmet
    exact ⟨member, hmember, hsuffices hgood⟩

/-- Whatever is accepted in some mode is accepted in basic mode. -/
theorem check_basic_of_check {s : RuleSet} {mode : Mode} {document : Json}
    (h : s.check mode document = []) : s.check .basic document = [] := by
  cases mode with
  | basic => exact h
  | strict =>
    rw [check_eq_nil_iff] at h ⊢
    exact h.basic

/-- The verdict loses no defect. A document has no violation exactly if it passes, and exactly if
nothing at all was found in it: no line that is left out or said only once was the last one. -/
theorem the_verdict_loses_no_defect (s : RuleSet) (mode : Mode) (document : Json) :
    (s.check mode document = [] ↔ s.Passes mode document.withoutControls) ∧
      (s.check mode document = [] ↔ s.findings mode document = []) :=
  ⟨s.check_eq_nil_iff mode document, report_eq_nil_iff _⟩

end RuleSet

end CauseLists
