-- Reports do not depend on the order of what is checked. A report is told by the set of its
-- findings, and the findings by the sets of the anchors, the rules and the issues of the schema: in
-- another order, or with something named twice, only the names of the rules can be others.
import CauseLists.Inspection.Check
import CauseLists.Proofs.Inspection.Report
import CauseLists.Proofs.ListType

namespace CauseLists

/-! ## Findings that say the same -/

/-- Whatever some findings say, others say as well and with the same weight. -/
def SaidBy (findings findings' : List Finding) : Prop :=
  ∀ f ∈ findings, ∃ g ∈ findings', g.weight = f.weight ∧ g.remark = f.remark

section

variable {findings findings' : List Finding}

theorem SaidBy.mem_structuralLocations (h : SaidBy findings findings') {location : FieldPath}
    (hmem : location ∈ structuralLocations findings) :
    location ∈ structuralLocations findings' := by
  obtain ⟨f, hf, hweight, rfl⟩ := CauseLists.mem_structuralLocations.mp hmem
  obtain ⟨g, hg, hsame, hremark⟩ := h f hf
  exact CauseLists.mem_structuralLocations.mpr
    ⟨g, hg, hsame.trans hweight, congrArg Prod.fst hremark⟩

theorem SaidBy.due (h : SaidBy findings findings') (h' : SaidBy findings' findings) {r : Remark}
    (hdue : Due findings r) : Due findings' r := by
  obtain ⟨⟨f, hf, hremark, hspoken⟩, hbelow⟩ := hdue
  obtain ⟨g, hg, hweight, hsame⟩ := h f hf
  refine ⟨⟨g, hg, hsame.trans hremark, ?_⟩, ?_⟩
  · intro hschema hmem
    exact hspoken (hweight.symm.trans hschema) (h'.mem_structuralLocations hmem)
  · intro location hlocation
    exact hbelow location (h'.mem_structuralLocations hlocation)

/-- Findings that say the same are reported with the same remarks, whichever rules they come
from. -/
theorem report_of_said (h : SaidBy findings findings') (h' : SaidBy findings' findings) :
    (report findings).map Violation.remark = (report findings').map Violation.remark := by
  apply List.Pairwise.eq_of_mem_iff (pairwise_report findings) (pairwise_report findings')
  intro r
  rw [mem_report_iff, mem_report_iff]
  exact ⟨h.due h', h'.due h⟩

/-- Findings with the same members are reported with the same remarks. -/
theorem report_congr (h : ∀ f, f ∈ findings ↔ f ∈ findings') :
    (report findings).map Violation.remark = (report findings').map Violation.remark :=
  report_of_said (fun f hf => ⟨f, (h f).mp hf, rfl, rfl⟩) (fun f hf => ⟨f, (h f).mpr hf, rfl, rfl⟩)

end

namespace RuleSet

/-! ## Issues of the schema -/

/-- What the schema finds in a document, in the mode in which it applies. -/
def issues (s : RuleSet) (mode : Mode) (document : Json) : List SchemaIssue :=
  if mode.isStrict then s.schema.elim [] (fun schema => schema.issues document.cleaned) else []

/-- Everything that is found in a document if the schema finds certain issues. -/
def findingsWith (s : RuleSet) (mode : Mode) (document : Json) (issues : List SchemaIssue) :
    List Finding :=
  s.anchors.flatMap (fun a => (a.resolve document.cleaned).flatMap (s.anchorFindings mode)) ++
    issues.map ofSchemaIssue

/-- The violations of a document if the schema finds certain issues. -/
def checkWith (s : RuleSet) (mode : Mode) (document : Json) (issues : List SchemaIssue) :
    List Violation :=
  report (s.findingsWith mode document issues)

theorem findings_eq_findingsWith (s : RuleSet) (mode : Mode) (document : Json) :
    s.findings mode document = s.findingsWith mode document (s.issues mode document) := by
  have hissues : s.schemaIssues mode document.cleaned =
      (s.issues mode document).map ofSchemaIssue := by
    cases mode with
    | basic => rfl
    | strict =>
      cases hschema : s.schema with
      | none => simp [schemaIssues, issues, hschema]
      | some schema => simp [schemaIssues, issues, hschema, Mode.isStrict]
  rw [findings, findingsWith, hissues]

theorem check_eq_checkWith (s : RuleSet) (mode : Mode) (document : Json) :
    s.check mode document = s.checkWith mode document (s.issues mode document) :=
  congrArg report (s.findings_eq_findingsWith mode document)

/-! ## Rule sets with the same members -/

/-- Two rule sets name the same anchors and the same rules, in some order and each once or more
often. -/
structure Alike (s s' : RuleSet) : Prop where
  anchors : ∀ a, a ∈ s.givenAnchors ↔ a ∈ s'.givenAnchors
  baseRules : ∀ r, r ∈ s.baseRules ↔ r ∈ s'.baseRules
  strictRules : ∀ r, r ∈ s.strictRules ↔ r ∈ s'.strictRules

theorem mem_anchors (s : RuleSet) (a : FieldPath) :
    a ∈ s.anchors ↔ a ∈ s.givenAnchors ∨ a = [] ∧ ∀ b, b ∉ s.givenAnchors := by
  unfold anchors
  split
  · rename_i hnone
    simp [hnone]
  · rename_i hsome
    rw [← List.eq_nil_iff_forall_not_mem, or_iff_left (fun h => hsome h.2)]

theorem mem_rules (s : RuleSet) (mode : Mode) (r : Rule) :
    r ∈ s.rules mode ↔ r ∈ s.baseRules ∨ mode = .strict ∧ r ∈ s.strictRules := by
  cases mode <;> simp [rules]

namespace Alike

variable {s s' : RuleSet}

theorem mem_anchors (h : s.Alike s') (a : FieldPath) : a ∈ s.anchors ↔ a ∈ s'.anchors := by
  simp only [RuleSet.mem_anchors, h.anchors]

theorem mem_rules (h : s.Alike s') (mode : Mode) (r : Rule) :
    r ∈ s.rules mode ↔ r ∈ s'.rules mode := by
  simp only [RuleSet.mem_rules, h.baseRules, h.strictRules]

theorem mem_anchorFindings (h : s.Alike s') (mode : Mode) (ending : Ending) (f : Finding) :
    f ∈ s.anchorFindings mode ending ↔ f ∈ s'.anchorFindings mode ending := by
  cases ending with
  | stopped location obstacle => exact Iff.rfl
  | found location node =>
    by_cases hnull : node.isNull = true
    · simp only [anchorFindings, hnull, if_true]
    · simp only [anchorFindings, hnull, Bool.false_eq_true, if_false, List.mem_flatMap, h.mem_rules]

theorem mem_findingsWith (h : s.Alike s') (mode : Mode) (document : Json)
    {issues issues' : List SchemaIssue} (hissues : ∀ i, i ∈ issues ↔ i ∈ issues') (f : Finding) :
    f ∈ s.findingsWith mode document issues ↔ f ∈ s'.findingsWith mode document issues' := by
  simp only [findingsWith, List.mem_append, List.mem_flatMap, List.mem_map, h.mem_anchors,
    h.mem_anchorFindings, hissues]

end Alike

/-- A report says what is due. Its lines are in order, and no two say the same; they say what was
found, without what the schema adds in the place of a structural finding and without what lies
below one; whatever was found, one of them stands in its place or above; and they say the same
in whatever order the anchors, the rules and the issues of the schema come, and however often. -/
theorem the_report_says_what_is_due (s : RuleSet) (mode : Mode) (document : Json) :
    ((s.check mode document).map Violation.remark).Pairwise Remark.Before ∧
      (∀ r, r ∈ (s.check mode document).map Violation.remark ↔
        Due (s.findings mode document) r) ∧
      (∀ f ∈ s.findings mode document, ∃ v ∈ s.check mode document, v.location <+: f.location) ∧
      ∀ s' issues, s.Alike s' → (∀ i, i ∈ s.issues mode document ↔ i ∈ issues) →
        (s'.checkWith mode document issues).map Violation.remark =
          (s.check mode document).map Violation.remark := by
  refine ⟨pairwise_report _, mem_report_iff _, fun f => exists_line, ?_⟩
  intro s' issues halike hissues
  rw [check_eq_checkWith]
  exact (report_congr (halike.mem_findingsWith mode document hissues)).symm

/-! Three rules that miss the same court house. In either order it is reported once, by the rule
that comes first. -/

namespace Example

def always : Rule := ⟨[.key "courtHouse"], .required⟩

def ifTitled : Rule := ⟨[.key "courtHouse"], .requiredWhen [.key "title"] none⟩

def named : Rule := ⟨[.key "courtHouse", .key "name"], .required⟩

def court : RuleSet where
  listType := ⟨"DAILY_LIST", ListType.isCanonical_daily⟩
  givenAnchors := []
  baseRules := [always, ifTitled, named]
  strictRules := []
  schema := none

/-- The same rules in another order, one of them twice. -/
def reordered : RuleSet := { court with baseRules := [ifTitled, named, always, named] }

theorem alike_reordered : court.Alike reordered := by
  refine ⟨fun a => Iff.rfl, ?_, fun r => Iff.rfl⟩
  intro r
  simp only [court, reordered, List.mem_cons, List.not_mem_nil, or_false]
  tauto

def titled : Json := .object [("title", .string "Daily list")]

end Example

theorem a_missing_court_house_is_reported_once :
    Example.court.Alike Example.reordered ∧
      (Example.reordered.checkWith .strict Example.titled []).map Violation.remark =
        (Example.court.check .strict Example.titled).map Violation.remark ∧
      Example.court.check .strict Example.titled =
        [⟨[.key "courtHouse"], "is missing", "required"⟩] ∧
      Example.reordered.check .strict Example.titled =
        [⟨[.key "courtHouse"], "is missing", "conditional_required"⟩] := by
  obtain ⟨-, -, -, hsame⟩ := the_report_says_what_is_due Example.court .strict Example.titled
  have hissues : ∀ i, i ∈ Example.court.issues .strict Example.titled ↔ i ∈ [] := fun i => Iff.rfl
  exact ⟨Example.alike_reordered, hsame _ _ Example.alike_reordered hissues, by decide +kernel,
    by decide +kernel⟩

end RuleSet

end CauseLists
