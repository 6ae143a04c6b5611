-- A required node that is taken out is reported, at its own place and nowhere else. Whatever looked
-- through it or below it stops where it was and says the same; whatever looked at a node above it
-- still finds an object or an array, of which no rule that was content before has anything to say.
import CauseLists.Inspection.Check
import CauseLists.Proofs.FieldPath.Removal
import CauseLists.Proofs.Inspection.Report
import CauseLists.Proofs.Json.Controls
import CauseLists.Proofs.ListType

namespace CauseLists

/-! ## One thing said many times -/

/-- A finding says that the node at a location is missing. -/
structure Finding.TellsMissing (location : FieldPath) (f : Finding) : Prop where
  weight : f.weight = .structural
  location : f.location = location
  reason : f.reason = Obstacle.absent.message

/-- Findings that all say the same make one line. -/
theorem collect_of_alike {location : FieldPath} {reason : String} {first : Finding}
    {findings : List Finding}
    (h : ∀ f ∈ first :: findings, f.location = location ∧ f.reason = reason) :
    collect (first :: findings) = [first.violation] := by
  induction findings using List.reverseRecOn with
  | nil => rfl
  | append_singleton findings g ih =>
    have hfirst := h first List.mem_cons_self
    have hlast := h g (by simp)
    have halike : g.violation.order first.violation = .eq :=
      (Violation.order_eq_iff _ _).mpr
        ⟨hlast.1.trans hfirst.1.symm, hlast.2.trans hfirst.2.symm⟩
    have hbefore : ∀ f ∈ first :: findings, f.location = location ∧ f.reason = reason :=
      fun f hf => h f (List.mem_append_left [g] hf)
    rw [← List.cons_append, collect_concat, ih hbefore]
    simp [Violation.place, halike]

/-- A report on findings that all miss one node is one line. -/
theorem report_of_missing {location : FieldPath} {findings : List Finding} (hne : findings ≠ [])
    (h : ∀ f ∈ findings, f.TellsMissing location) :
    ∃ rule, report findings = [⟨location, Obstacle.absent.message, rule⟩] := by
  obtain ⟨first, rest, rfl⟩ := List.exists_cons_of_ne_nil hne
  have hrules : ruleFindings (first :: rest) = first :: rest := by
    rw [ruleFindings, List.filter_eq_self]
    intro f hf
    simp [(h f hf).weight]
  have hschema : schemaFindings (first :: rest) = [] := by
    rw [schemaFindings, List.filter_eq_nil_iff]
    intro f hf
    simp [(h f hf).weight]
  have hcovered : ∀ p ∈ structuralLocations (first :: rest), p = location := by
    intro p hp
    obtain ⟨f, hf, -, rfl⟩ := mem_structuralLocations.mp hp
    exact (h f hf).location
  have hfirst := h first List.mem_cons_self
  have hline : first.violation = ⟨location, Obstacle.absent.message, first.rule⟩ := by
    rw [Finding.violation, hfirst.location, hfirst.reason]
  refine ⟨first.rule, ?_⟩
  unfold report
  dsimp only
  rw [hrules, hschema, List.append_nil,
    collect_of_alike (fun f hf => ⟨(h f hf).location, (h f hf).reason⟩), hline]
  have hkept : (structuralLocations (first :: rest)).any
      (fun p => location.isStrictlyBelow p) = false := by
    rw [List.any_eq_false]
    intro p hp
    simp [hcovered p hp, FieldPath.isStrictlyBelow]
  simp [hkept]

/-! ## Judges of endings -/

/-- A judge that has nothing to say of a node says after a loss at most that the lost node is
missing. -/
def StaysContent (judge : Ending → List Finding) : Prop :=
  ∀ place rest node node', Json.Loses rest node node' → judge (.found place node) = [] →
    ∀ f ∈ judge (.found place node'), f.TellsMissing (place ++ rest)

/-- Where a walk stops at a missing node a judge says at most that it is missing. -/
def MissesOnly (judge : Ending → List Finding) : Prop :=
  ∀ location, ∀ f ∈ judge (.stopped location .absent), f.TellsMissing location

/-- What such a judge says after a loss about all endings of a path. -/
theorem tells_of_loses {judge : Ending → List Finding} (hcontent : StaysContent judge)
    (hmisses : MissesOnly judge) {rest : FieldPath} {node node' : Json}
    (hloses : Json.Loses rest node node') {p base : FieldPath}
    (hbefore : (p.resolveFrom node base).flatMap judge = []) :
    ∀ f ∈ (p.resolveFrom node' base).flatMap judge, f.TellsMissing (base ++ rest) := by
  intro f hf
  rw [List.flatMap_eq_nil_iff] at hbefore
  obtain ⟨e, he, hf⟩ := List.mem_flatMap.mp hf
  obtain ⟨inner, hinner, rfl⟩ := List.mem_map.mp he
  have hafter : Ending.AfterLoss (base ++ rest) (p.resolveFrom node base) (inner.under base) :=
    (FieldPath.walk_of_loses hloses p hinner).under base
  generalize inner.under base = e at hf hafter
  cases hafter with
  | gone => exact hmisses _ f hf
  | same he =>
    rw [hbefore _ he] at hf
    cases hf
  | above hfound hsplit hinside =>
    rw [hsplit]
    exact hcontent _ _ _ _ hinside (hbefore _ hfound) f hf

/-! ## Required nodes -/

/-- What has lost a member still holds something. -/
theorem lack?_of_loses {rest : FieldPath} {node node' : Json} (h : Json.Loses rest node node')
    (mode : Mode) : lack? mode node' = none := by
  cases h with
  | member _ _ => rfl
  | under _ _ => rfl
  | @within i items item item' rest hitem _ =>
    cases items with
    | nil => cases hitem
    | cons first more => cases i <;> rfl

theorem requireEnding_staysContent (mode : Mode) (rule : String) :
    StaysContent (requireEnding mode rule) := by
  intro place rest node node' hloses _ f hf
  simp [requireEnding, lack?_of_loses hloses mode] at hf

theorem requireEnding_missesOnly (mode : Mode) (rule : String) :
    MissesOnly (requireEnding mode rule) := by
  intro location f hf
  obtain rfl := List.mem_singleton.mp hf
  exact ⟨rfl, rfl, rfl⟩

/-! ## Formats -/

/-- What holds something has no format. -/
theorem formatEnding_staysContent (format : Format) : StaysContent (formatEnding format) := by
  intro place rest node node' hloses hbefore
  cases hloses <;> cases hbefore

theorem formatEnding_missesOnly (format : Format) : MissesOnly (formatEnding format) := by
  intro location f hf
  cases hf

/-! ## Conditions -/

/-- A value that holds no others. -/
def Json.IsScalar (value : Json) : Prop := value.kind ≠ .array ∧ value.kind ≠ .object

theorem Json.same_eq_false_of_loses {rest : FieldPath} {node node' value : Json}
    (h : Json.Loses rest node node') (hvalue : value.IsScalar) : node'.same value = false := by
  obtain ⟨harray, hobject⟩ := hvalue
  cases h with
  | member _ _ => cases value <;> first | rfl | exact absurd rfl hobject
  | under _ _ => cases value <;> first | rfl | exact absurd rfl hobject
  | within _ _ => cases value <;> first | rfl | exact absurd rfl harray

/-- A condition that holds after a loss held before: the nodes that could have met it are still
there, or they were only able to meet it by being there. -/
theorem conditionHolds_of_loses {rest : FieldPath} {holder holder' : Json}
    (hloses : Json.Loses rest holder holder') {condition : FieldPath} {equals : Option Json}
    (hscalar : ∀ value, equals = some value → value.IsScalar)
    (h : conditionHolds condition equals holder' = true) :
    conditionHolds condition equals holder = true := by
  unfold conditionHolds at h ⊢
  rw [List.any_eq_true] at h ⊢
  obtain ⟨e, he, htest⟩ := h
  simp only [FieldPath.resolve, FieldPath.resolveFrom, Ending.map_under_nil] at he ⊢
  cases FieldPath.walk_of_loses hloses condition he with
  | gone => cases htest
  | same hsame => exact ⟨e, hsame, htest⟩
  | @above place inner node node' hfound _ hinside =>
    refine ⟨.found place node, hfound, ?_⟩
    have hkind : node.isNull = false := by
      cases hinside <;> rfl
    cases equals with
    | none => simp [hkind]
    | some value => simp [Json.same_eq_false_of_loses hinside (hscalar value rfl)] at htest

theorem conditionEnding_staysContent (mode : Mode) (rule key : String) (condition : FieldPath)
    {equals : Option Json} (hscalar : ∀ value, equals = some value → value.IsScalar) :
    StaysContent (conditionEnding mode rule key condition equals) := by
  intro place rest holder holder' hloses hbefore f hf
  simp only [conditionEnding] at hbefore hf
  split at hf
  · rename_i hholds
    rw [if_pos (conditionHolds_of_loses hloses hscalar hholds)] at hbefore
    exact tells_of_loses (requireEnding_staysContent mode rule) (requireEnding_missesOnly mode rule)
      hloses hbefore f hf
  · cases hf

theorem conditionEnding_missesOnly (mode : Mode) (rule key : String) (condition : FieldPath)
    (equals : Option Json) : MissesOnly (conditionEnding mode rule key condition equals) := by
  intro location f hf
  cases hf

/-! ## Rules -/

/-- A condition that a rule asks about is that a node is there, or that it equals a scalar. -/
def Rule.ScalarCondition (r : Rule) : Prop :=
  ∀ condition value, r.demand = .requiredWhen condition (some value) → value.IsScalar

/-- A rule that was content under an anchor says after a loss at most that the lost node is
missing. -/
theorem Rule.findings_of_loses {r : Rule} (hscalar : r.ScalarCondition) {mode : Mode}
    {rest base : FieldPath} {anchor anchor' : Json} (hloses : Json.Loses rest anchor anchor')
    (hbefore : r.findings mode anchor base = []) :
    ∀ f ∈ r.findings mode anchor' base, f.TellsMissing (base ++ rest) := by
  obtain ⟨path, demand⟩ := r
  unfold Rule.findings at hbefore ⊢
  cases demand with
  | required =>
    exact tells_of_loses (requireEnding_staysContent mode _) (requireEnding_missesOnly mode _)
      hloses hbefore
  | format format =>
    exact tells_of_loses (formatEnding_staysContent format) (formatEnding_missesOnly format) hloses
      hbefore
  | requiredWhen condition equals =>
    dsimp only at hbefore ⊢
    split at hbefore
    · rename_i holder key hsplit
      have hvalue : ∀ value, equals = some value → value.IsScalar := by
        rintro value rfl
        exact hscalar condition value rfl
      exact tells_of_loses (conditionEnding_staysContent mode _ key condition hvalue)
        (conditionEnding_missesOnly mode _ key condition equals) hloses hbefore
    · exact fun f hf => absurd hf List.not_mem_nil

namespace RuleSet

/-! ## Anchors -/

theorem anchorFindings_staysContent {s : RuleSet} {mode : Mode}
    (hscalar : ∀ r ∈ s.rules mode, r.ScalarCondition) : StaysContent (s.anchorFindings mode) := by
  intro place rest node node' hloses hbefore f hf
  have hnull : node.isNull = false := by
    cases hloses <;> rfl
  have hnull' : node'.isNull = false := by
    cases hloses <;> rfl
  simp only [anchorFindings, hnull, hnull', Bool.false_eq_true, if_false, List.flatMap_eq_nil_iff,
    List.mem_flatMap] at hbefore hf
  obtain ⟨r, hr, hf⟩ := hf
  exact Rule.findings_of_loses (hscalar r hr) hloses (hbefore r hr) f hf

theorem anchorFindings_missesOnly (s : RuleSet) (mode : Mode) :
    MissesOnly (s.anchorFindings mode) := by
  intro location f hf
  obtain rfl := List.mem_singleton.mp hf
  exact ⟨rfl, rfl, rfl⟩

/-- A required rule under an anchor, or the anchor, misses the node that was taken out. -/
theorem exists_finding_of_stopped {s : RuleSet} {mode : Mode} {a location : FieldPath} {r : Rule}
    {document : Json} (hr : r ∈ s.rules mode) (hrequired : r.demand = .required)
    (hstopped : .stopped location .absent ∈ (a ++ r.path).walk document) :
    ∃ f, f ∈ (a.resolve document).flatMap (s.anchorFindings mode) := by
  rw [FieldPath.walk_append] at hstopped
  obtain ⟨e, he, hthen⟩ := List.mem_flatMap.mp hstopped
  have hresolve : e ∈ a.resolve document := by
    simpa [FieldPath.resolve, FieldPath.resolveFrom] using he
  cases e with
  | stopped place obstacle =>
    exact ⟨_, List.mem_flatMap.mpr ⟨_, hresolve, List.mem_singleton_self _⟩⟩
  | found place node =>
    cases hnull : node.isNull with
    | true =>
      refine ⟨⟨.structural, place, Lack.null.message, "anchor"⟩,
        List.mem_flatMap.mpr ⟨_, hresolve, ?_⟩⟩
      simp [anchorFindings, hnull]
    | false =>
      refine ⟨⟨.structural, location, Obstacle.absent.message, r.label⟩,
        List.mem_flatMap.mpr ⟨_, hresolve, ?_⟩⟩
      simp only [anchorFindings, hnull, Bool.false_eq_true, if_false, List.mem_flatMap]
      refine ⟨r, hr, ?_⟩
      simp only [Rule.findings, hrequired, List.mem_flatMap]
      exact ⟨_, hthen, List.mem_singleton_self _⟩

/-! ## Documents -/

/-- After a loss everything that is found says that the lost node is missing. -/
theorem findings_of_loses {s : RuleSet} {mode : Mode} {location : FieldPath}
    {document document' : Json} (hscalar : ∀ r ∈ s.rules mode, r.ScalarCondition)
    (hschema : mode = .strict → s.schema = none) (hloses : Json.Loses location document document')
    (hbefore : s.findings mode document = []) :
    ∀ f ∈ s.findings mode document', f.TellsMissing location := by
  have hnoSchema : ∀ other, s.schemaIssues mode other = [] := by
    intro other
    cases mode with
    | basic => rfl
    | strict => simp [schemaIssues, hschema rfl]
  have hcleaned : Json.Loses location document.cleaned document'.cleaned := by
    rw [Json.cleaned_eq_withoutControls, Json.cleaned_eq_withoutControls]
    exact hloses.mapStrings _
  unfold findings at hbefore ⊢
  dsimp only at hbefore ⊢
  rw [hnoSchema, List.append_nil] at hbefore ⊢
  rw [List.flatMap_eq_nil_iff] at hbefore
  intro f hf
  obtain ⟨a, ha, hf⟩ := List.mem_flatMap.mp hf
  exact tells_of_loses (anchorFindings_staysContent hscalar) (s.anchorFindings_missesOnly mode)
    hcleaned (hbefore a ha) f hf

/-- A required node that is taken out of a document without violations is reported as missing, and
nothing else is reported. -/
theorem a_removed_node_is_reported_alone {s : RuleSet} {mode : Mode} {document : Json}
    {a holder : FieldPath} {r : Rule} {name : String}
    (hscalar : ∀ r ∈ s.rules mode, r.ScalarCondition) (hschema : mode = .strict → s.schema = none)
    (honce : document.KeysOnce) (hvalid : s.check mode document = []) (ha : a ∈ s.anchors)
    (hr : r ∈ s.rules mode) (hrequired : r.demand = .required)
    (hlocation : holder ++ [.key name] ∈ (a ++ r.path).locate document) :
    (FieldPath.remove (holder ++ [.key name]) document).1 = 1 ∧
      ∃ rule, s.check mode (FieldPath.remove (holder ++ [.key name]) document).2 =
        [⟨holder ++ [.key name], "is missing", rule⟩] := by
  obtain ⟨target, hfound⟩ := FieldPath.mem_locate.mp hlocation
  obtain ⟨hone, hloses⟩ := FieldPath.remove_loses honce (FieldPath.get?_of_found hfound)
  generalize (FieldPath.remove (holder ++ [.key name]) document).2 = document' at hloses ⊢
  refine ⟨hone, report_of_missing ?_ ?_⟩
  · -- The path that reached the node stops there, in the cleaned document as in the given one.
    have hstopped := FieldPath.stopped_of_loses hloses hfound
    have hcleaned : .stopped (holder ++ [.key name]) .absent ∈
        (a ++ r.path).walk document'.cleaned := by
      rw [Json.cleaned_eq_withoutControls, Json.withoutControls, FieldPath.walk_mapStrings]
      exact List.mem_map.mpr ⟨_, hstopped, rfl⟩
    obtain ⟨f, hf⟩ := exists_finding_of_stopped hr hrequired hcleaned
    refine List.ne_nil_of_mem (a := f) ?_
    exact List.mem_append_left _ (List.mem_flatMap.mpr ⟨a, ha, hf⟩)
  · exact findings_of_loses hscalar hschema hloses ((report_eq_nil_iff _).mp hvalid)

/-! A list of two hearings, the first of which loses its case name. -/

namespace Example

/-- Every hearing has a case name of five characters, and one case has to have a number. -/
def rules : RuleSet where
  listType := ⟨"DAILY_LIST", ListType.isCanonical_daily⟩
  givenAnchors := [[.key "hearings", .each]]
  baseRules := [⟨[.key "caseName"], .required⟩, ⟨[.key "caseName"], .format (.fixedLength 5)⟩]
  strictRules := [⟨[.key "urn"], .requiredWhen [.key "caseName"] (some (.string "R v A"))⟩]
  schema := none

def document : Json :=
  .object [("hearings", .array [
    .object [("caseName", .string "R v A"), ("urn", .string "1")],
    .object [("caseName", .string "R v B")]])]

/-- Where the first case name stands. -/
def caseName : FieldPath := [.key "hearings", .index 0, .key "caseName"]

theorem keysOnce_document : document.KeysOnce := by
  have hnames : ∀ s, (Json.string s).KeysOnce := .string
  simp only [document]
  refine .object (by decide) ?_
  simp only [List.forall_mem_singleton]
  refine .array ?_
  simp only [List.forall_mem_cons]
  refine ⟨.object (by decide) ?_, .object (by decide) ?_, by simp⟩ <;> simp [hnames]

end Example

theorem the_first_case_name_is_reported_alone :
    Example.rules.check .strict Example.document = [] ∧
      (Example.caseName.remove Example.document).1 = 1 ∧
      ∃ rule, Example.rules.check .strict (Example.caseName.remove Example.document).2 =
        [⟨Example.caseName, "is missing", rule⟩] := by
  have hscalar : ∀ r ∈ Example.rules.rules .strict, r.ScalarCondition := by
    simp [rules, Example.rules, Rule.ScalarCondition, Json.IsScalar, Json.kind]
  have hvalid : Example.rules.check .strict Example.document = [] := by decide +kernel
  have hlocation : [.key "hearings", .index 0] ++ [.key "caseName"] ∈
      FieldPath.locate ([.key "hearings", .each] ++ [.key "caseName"]) Example.document := by
    decide +kernel
  exact ⟨hvalid, a_removed_node_is_reported_alone hscalar (fun _ => rfl) Example.keysOnce_document
    hvalid List.mem_cons_self List.mem_cons_self rfl hlocation⟩

end RuleSet

end CauseLists
