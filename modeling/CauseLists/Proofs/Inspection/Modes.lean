-- What strict mode adds. Whatever the rules find in basic mode they find in strict mode in the same
-- words. A report in strict mode may still leave a line out that the report in basic mode has, for
-- strict rules and the schema may say more of a node above; but then it says that.
import CauseLists.Inspection.Verdict
import CauseLists.Proofs.Inspection.Report
import CauseLists.Proofs.ListType

namespace CauseLists

/-! ## Findings of basic mode -/

/-- A finding that stands in strict mode too, and that is not left to the schema. -/
def Finding.Stands (strict : List Finding) (f : Finding) : Prop :=
  f ∈ strict ∧ f.weight ≠ .schema

theorem lack?_strict {node : Json} {lack : Lack} (h : lack? .basic node = some lack) :
    lack? .strict node = some lack := by
  cases node with
  | string s => simp [lack?, Mode.isStrict] at h
  | array items =>
    cases items with
    | nil => exact h
    | cons _ _ => cases h
  | null => exact h
  | bool _ => cases h
  | number _ => cases h
  | object _ => cases h

theorem requireEnding_stands (rule : String) (e : Ending) :
    ∀ f ∈ requireEnding .basic rule e, f.Stands (requireEnding .strict rule e) := by
  intro f hf
  cases e with
  | found location node =>
    cases hlack : lack? .basic node with
    | none => simp [requireEnding, hlack] at hf
    | some lack =>
      simp only [requireEnding, hlack] at hf
      simp only [requireEnding, lack?_strict hlack]
      obtain rfl := List.mem_singleton.mp hf
      exact ⟨List.mem_singleton_self _, by simp⟩
  | stopped location obstacle =>
    obtain rfl := List.mem_singleton.mp hf
    exact ⟨List.mem_singleton_self _, by simp⟩

/-- What stands for every ending stands for all of them. -/
theorem stands_flatMap {judge judge' : Ending → List Finding}
    (h : ∀ e, ∀ f ∈ judge e, f.Stands (judge' e)) (endings : List Ending) :
    ∀ f ∈ endings.flatMap judge, f.Stands (endings.flatMap judge') := by
  intro f hf
  obtain ⟨e, he, hf⟩ := List.mem_flatMap.mp hf
  exact ⟨List.mem_flatMap.mpr ⟨e, he, (h e f hf).1⟩, (h e f hf).2⟩

theorem formatEnding_stands (format : Format) (e : Ending) :
    ∀ f ∈ formatEnding format e, f.Stands (formatEnding format e) := by
  intro f hf
  refine ⟨hf, ?_⟩
  cases e with
  | stopped location obstacle => cases hf
  | found location node =>
    simp only [formatEnding] at hf
    split at hf
    · cases hf
    · split at hf
      · cases hf
      · obtain rfl := List.mem_singleton.mp hf
        simp

theorem conditionEnding_stands (rule key : String) (condition : FieldPath) (equals : Option Json)
    (e : Ending) :
    ∀ f ∈ conditionEnding .basic rule key condition equals e,
      f.Stands (conditionEnding .strict rule key condition equals e) := by
  intro f hf
  cases e with
  | stopped location obstacle => cases hf
  | found location holder =>
    simp only [conditionEnding] at hf ⊢
    split at hf
    · rename_i hmet
      rw [if_pos hmet]
      exact stands_flatMap (requireEnding_stands rule) _ f hf
    · cases hf

theorem Rule.findings_stands (r : Rule) (anchor : Json) (location : FieldPath) :
    ∀ f ∈ r.findings .basic anchor location, f.Stands (r.findings .strict anchor location) := by
  obtain ⟨path, demand⟩ := r
  unfold Rule.findings
  cases demand with
  | required => exact stands_flatMap (requireEnding_stands _) _
  | format format => exact stands_flatMap (formatEnding_stands format) _
  | requiredWhen condition equals =>
    dsimp only
    split
    · rename_i holder key _
      exact stands_flatMap (conditionEnding_stands _ key condition equals) _
    · intro f hf
      cases hf

namespace RuleSet

theorem anchorFindings_stands (s : RuleSet) (e : Ending) :
    ∀ f ∈ s.anchorFindings .basic e, f.Stands (s.anchorFindings .strict e) := by
  intro f hf
  cases e with
  | stopped location obstacle =>
    obtain rfl := List.mem_singleton.mp hf
    exact ⟨List.mem_singleton_self _, by simp⟩
  | found location node =>
    simp only [anchorFindings] at hf ⊢
    split at hf
    · rename_i hnull
      rw [if_pos hnull]
      obtain rfl := List.mem_singleton.mp hf
      exact ⟨List.mem_singleton_self _, by simp⟩
    · rename_i hnull
      rw [if_neg hnull]
      obtain ⟨r, hr, hf⟩ := List.mem_flatMap.mp hf
      have hstands := r.findings_stands node location f hf
      have hr' : r ∈ s.rules .strict := List.mem_append_left _ hr
      exact ⟨List.mem_flatMap.mpr ⟨r, hr', hstands.1⟩, hstands.2⟩

/-- Everything that is found in basic mode is found in strict mode, by a rule. -/
theorem findings_stands (s : RuleSet) (document : Json) :
    ∀ f ∈ s.findings .basic document, f.Stands (s.findings .strict document) := by
  intro f hf
  rcases List.mem_append.mp hf with hf | hf
  · obtain ⟨a, ha, hf⟩ := List.mem_flatMap.mp hf
    have hstands := stands_flatMap s.anchorFindings_stands _ f hf
    refine ⟨List.mem_append_left _ ?_, hstands.2⟩
    exact List.mem_flatMap.mpr ⟨a, ha, hstands.1⟩
  · -- The schema does not apply in basic mode.
    cases hf

/-! ## Reports of the two modes -/

theorem exists_finding_of_line {s : RuleSet} {mode : Mode} {document : Json} {v : Violation}
    (hv : v ∈ s.check mode document) : ∃ f ∈ s.findings mode document, f.remark = v.remark := by
  obtain ⟨⟨f, hf, hsame, -⟩, -⟩ := (mem_report_iff _ _).mp (List.mem_map_of_mem hv)
  exact ⟨f, hf, hsame⟩

/-- Strict mode covers basic mode. For every line of the report in basic mode the report in strict
mode says the same, or it says something of a node above; so what strict mode accepts basic mode
accepts. -/
theorem strict_mode_covers_basic_mode (s : RuleSet) (document : Json) :
    (∀ v ∈ s.check .basic document, ∃ w ∈ s.check .strict document,
      (w.location = v.location ∧ w.reason = v.reason) ∨
        (w.location <+: v.location ∧ w.location ≠ v.location)) ∧
    (s.judge .strict document = .ok () → s.judge .basic document = .ok ()) := by
  have hcovered : ∀ v ∈ s.check .basic document, ∃ w ∈ s.check .strict document,
      (w.location = v.location ∧ w.reason = v.reason) ∨
        (w.location <+: v.location ∧ w.location ≠ v.location) := by
    intro v hv
    obtain ⟨f, hf, hsame⟩ := exists_finding_of_line hv
    obtain ⟨hlocation, -⟩ := Prod.mk.inj hsame
    have hstands := s.findings_stands document f hf
    obtain ⟨w, hw, hline | ⟨hbegins, hshorter⟩⟩ :=
      exists_line_or_above hstands.1 (fun hschema => absurd hschema hstands.2)
    · exact ⟨w, hw, .inl (Prod.mk.inj (hline.trans hsame))⟩
    · rw [hlocation] at hbegins hshorter
      exact ⟨w, hw, .inr ⟨hbegins, fun h => absurd (congrArg List.length h) hshorter.ne⟩⟩
  refine ⟨hcovered, ?_⟩
  have hjudge : ∀ mode, s.judge mode document = .ok () ↔ s.check mode document = [] := by
    intro mode
    unfold judge
    split <;> simp_all
  rw [hjudge, hjudge]
  intro haccepted
  rw [List.eq_nil_iff_forall_not_mem]
  intro v hv
  obtain ⟨w, hw, -⟩ := hcovered v hv
  rw [haccepted] at hw
  cases hw

/-! A court house without a name. Strict mode asks for the first of several court houses, finds one
that is no row of them, and says nothing more of its name. -/

namespace UnnamedCourt

def named : Rule := ⟨[.key "courtHouse", .key "name"], .required⟩

def first : Rule := ⟨[.key "courtHouse", .index 0], .required⟩

def courtHouses : RuleSet where
  listType := ⟨"DAILY_LIST", ListType.isCanonical_daily⟩
  givenAnchors := []
  baseRules := [named]
  strictRules := [first]
  schema := none

def unnamed : Json := .object [("courtHouse", .object [("town", .string "Leeds")])]

end UnnamedCourt

theorem an_unnamed_court_house_is_covered :
    (⟨[.key "courtHouse", .key "name"], "is missing", "required"⟩ : Violation) ∈
        UnnamedCourt.courtHouses.check .basic UnnamedCourt.unnamed ∧
      UnnamedCourt.courtHouses.check .strict UnnamedCourt.unnamed =
        [⟨[.key "courtHouse"], "expected an array, found an object", "required"⟩] ∧
      ∃ w ∈ UnnamedCourt.courtHouses.check .strict UnnamedCourt.unnamed,
        w.location <+: [.key "courtHouse", .key "name"] := by
  have hline : (⟨[.key "courtHouse", .key "name"], "is missing", "required"⟩ : Violation) ∈
      UnnamedCourt.courtHouses.check .basic UnnamedCourt.unnamed := by decide +kernel
  refine ⟨hline, by decide +kernel, ?_⟩
  obtain ⟨w, hw, ⟨hsame, -⟩ | ⟨habove, -⟩⟩ :=
    (strict_mode_covers_basic_mode UnnamedCourt.courtHouses UnnamedCourt.unnamed).1 _ hline
  · exact ⟨w, hw, hsame ▸ List.prefix_rfl⟩
  · exact ⟨w, hw, habove⟩

end RuleSet

end CauseLists
