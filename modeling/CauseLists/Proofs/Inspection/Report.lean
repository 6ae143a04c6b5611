-- What a report keeps of its findings. It says each thing once and in order. It says exactly what
-- was found, but for what the schema adds in the place of a structural finding and for what lies
-- below one; and whatever was found, it says something there or above. So a report is empty only
-- if nothing was found.
import CauseLists.Inspection.Finding
import CauseLists.Proofs.FieldPath.Order
import Mathlib.Data.List.Induction
import Mathlib.Data.List.Sort

namespace CauseLists

/-! ## Remarks -/

/-- What is said, and of which place. -/
abbrev Remark := FieldPath × String

/-- Remarks by location, and then by what they say. -/
def Remark.order (a b : Remark) : Ordering := (a.1.order b.1).then (compare a.2 b.2)

namespace Remark

theorem order_eq_iff (a b : Remark) : Remark.order a b = .eq ↔ a = b := by
  rw [order, Ordering.then_eq_eq, FieldPath.order_eq_iff, Std.LawfulEqOrd.compare_eq_iff_eq,
    Prod.ext_iff]

instance : Std.TransCmp Remark.order :=
  have _ : Std.TransCmp (fun a b : Remark => a.1.order b.1) :=
    { eq_swap := Std.OrientedCmp.eq_swap, isLE_trans := Std.TransCmp.isLE_trans }
  have _ : Std.TransCmp (fun a b : Remark => compare a.2 b.2) :=
    { eq_swap := Std.OrientedOrd.eq_swap, isLE_trans := Std.TransOrd.isLE_trans }
  inferInstanceAs (Std.TransCmp (compareLex _ _))

/-- One remark comes before another one. -/
def Before (a b : Remark) : Prop := Remark.order a b = .lt

theorem Before.trans {a b c : Remark} (h : Before a b) (h' : Before b c) : Before a c :=
  Std.TransCmp.lt_trans h h'

instance : Std.Irrefl Before := ⟨fun a h => by
  rw [Before, (order_eq_iff a a).mpr rfl] at h
  cases h⟩

instance : Std.Antisymm Before := ⟨fun a b h h' => by
  cases (Std.OrientedCmp.gt_of_lt h).symm.trans h'⟩

end Remark

/-- What a line of a report says. -/
def Violation.remark (v : Violation) : Remark := (v.location, v.reason)

/-- What a finding says. -/
def Finding.remark (f : Finding) : Remark := (f.location, f.reason)

theorem Violation.order_eq_iff (v w : Violation) :
    v.order w = .eq ↔ v.location = w.location ∧ v.reason = w.reason :=
  (Remark.order_eq_iff v.remark w.remark).trans Prod.ext_iff

/-! ## Collecting -/

/-- With a violation placed among some lines what it says is said, and what they say. -/
theorem Violation.mem_place (v : Violation) (l : List Violation) (r : Remark) :
    r ∈ (v.place l).map remark ↔ r = v.remark ∨ r ∈ l.map remark := by
  induction l with
  | nil => simp [place]
  | cons w rest ih =>
    unfold place
    split
    · exact List.mem_cons
    · rename_i heq
      have hsame : v.remark = w.remark := (Remark.order_eq_iff v.remark w.remark).mp heq
      rw [hsame, List.map_cons, List.mem_cons]
      exact (or_iff_right_of_imp .inl).symm
    · rw [List.map_cons, List.mem_cons, ih, List.map_cons, List.mem_cons, or_left_comm]

/-- Lines in order, none of which says what another says, are so still with a violation placed among
them. -/
theorem Violation.pairwise_place (v : Violation) {l : List Violation}
    (h : (l.map remark).Pairwise Remark.Before) :
    ((v.place l).map remark).Pairwise Remark.Before := by
  induction l with
  | nil => exact List.pairwise_singleton _ _
  | cons w rest ih =>
    obtain ⟨hw, hrest⟩ := List.pairwise_cons.mp h
    unfold place
    split
    · rename_i hlt
      have hbefore : Remark.Before v.remark w.remark := hlt
      refine List.pairwise_cons.mpr ⟨?_, h⟩
      rintro r (_ | ⟨_, hr⟩)
      · exact hbefore
      · exact hbefore.trans (hw r hr)
    · exact h
    · rename_i hgt
      refine List.pairwise_cons.mpr ⟨?_, ih hrest⟩
      intro r hr
      rcases (v.mem_place rest r).mp hr with rfl | hr
      · exact Std.OrientedCmp.gt_iff_lt.mp hgt
      · exact hw r hr

theorem collect_concat (findings : List Finding) (f : Finding) :
    collect (findings ++ [f]) = f.violation.place (collect findings) := by
  simp [collect]

/-- What is collected says what the findings say. -/
theorem mem_collect (findings : List Finding) (r : Remark) :
    r ∈ (collect findings).map Violation.remark ↔ r ∈ findings.map Finding.remark := by
  induction findings using List.reverseRecOn with
  | nil => exact Iff.rfl
  | append_singleton findings f ih =>
    rw [collect_concat, Violation.mem_place, ih, List.map_append, List.mem_append, or_comm]
    exact or_congr_right List.mem_singleton.symm

theorem Violation.eq_or_mem_of_mem_place {v w : Violation} {l : List Violation}
    (h : v ∈ w.place l) : v = w ∨ v ∈ l := by
  induction l with
  | nil => exact .inl (List.mem_singleton.mp h)
  | cons u rest ih =>
    unfold place at h
    split at h
    · exact List.mem_cons.mp h
    · exact .inr h
    · rcases List.mem_cons.mp h with rfl | h
      · exact .inr List.mem_cons_self
      · exact (ih h).imp_right (List.mem_cons_of_mem u)

/-- A line that is collected is one of the findings, under the name of its rule. -/
theorem exists_of_mem_collect {findings : List Finding} {v : Violation}
    (h : v ∈ collect findings) : ∃ f ∈ findings, f.violation = v := by
  induction findings using List.reverseRecOn with
  | nil => cases h
  | append_singleton findings f ih =>
    rw [collect_concat] at h
    rcases Violation.eq_or_mem_of_mem_place h with rfl | h
    · exact ⟨f, List.mem_append_right _ (List.mem_singleton_self f), rfl⟩
    · obtain ⟨g, hg, hsame⟩ := ih h
      exact ⟨g, List.mem_append_left _ hg, hsame⟩

theorem pairwise_collect (findings : List Finding) :
    ((collect findings).map Violation.remark).Pairwise Remark.Before := by
  induction findings using List.reverseRecOn with
  | nil => exact .nil
  | append_singleton findings f ih =>
    rw [collect_concat]
    exact f.violation.pairwise_place ih

/-! ## What is left out -/

theorem mem_structuralLocations {findings : List Finding} {location : FieldPath} :
    location ∈ structuralLocations findings ↔
      ∃ f ∈ findings, f.weight = .structural ∧ f.location = location := by
  simp [structuralLocations, and_assoc]

theorem mem_ruleFindings {findings : List Finding} {f : Finding} :
    f ∈ ruleFindings findings ↔ f ∈ findings ∧ f.weight ≠ .schema := by
  simp [ruleFindings]

theorem mem_schemaFindings {findings : List Finding} {f : Finding} :
    f ∈ schemaFindings findings ↔
      f ∈ findings ∧ f.weight = .schema ∧ f.location ∉ structuralLocations findings := by
  simp [schemaFindings]

/-- A remark is due: it was found, by a rule or else by the schema in a place of no structural
finding, and its place lies below no place of a structural finding. -/
def Due (findings : List Finding) (r : Remark) : Prop :=
  (∃ f ∈ findings, f.remark = r ∧
    (f.weight = .schema → r.1 ∉ structuralLocations findings)) ∧
  ∀ location ∈ structuralLocations findings, r.1.isStrictlyBelow location = false

/-- A report makes the remarks that are due. -/
theorem mem_report_iff (findings : List Finding) (r : Remark) :
    r ∈ (report findings).map Violation.remark ↔ Due findings r := by
  have hkept : ∀ v : Violation,
      (!(structuralLocations findings).any (fun p => v.location.isStrictlyBelow p)) = true ↔
        ∀ location ∈ structuralLocations findings, v.remark.1.isStrictlyBelow location = false := by
    simp [Violation.remark]
  have hfound : ∀ f, f ∈ ruleFindings findings ++ schemaFindings findings ↔
      f ∈ findings ∧ (f.weight = .schema → f.remark.1 ∉ structuralLocations findings) := by
    intro f
    rw [List.mem_append, mem_ruleFindings, mem_schemaFindings, ← and_or_left]
    exact and_congr_right (fun _ => by by_cases h : f.weight = .schema <;> simp [h, Finding.remark])
  constructor
  · intro hr
    obtain ⟨v, hv, rfl⟩ := List.mem_map.mp hr
    obtain ⟨hcollected, hbelow⟩ := List.mem_filter.mp hv
    obtain ⟨f, hf, hsame⟩ := List.mem_map.mp
      ((mem_collect _ v.remark).mp (List.mem_map_of_mem hcollected))
    obtain ⟨hmem, hschema⟩ := (hfound f).mp hf
    exact ⟨⟨f, hmem, hsame, hsame ▸ hschema⟩, (hkept v).mp hbelow⟩
  · rintro ⟨⟨f, hmem, rfl, hschema⟩, hbelow⟩
    have hcollected := (mem_collect _ f.remark).mpr
      (List.mem_map_of_mem ((hfound f).mpr ⟨hmem, hschema⟩))
    obtain ⟨v, hv, hsame⟩ := List.mem_map.mp hcollected
    rw [← hsame] at hbelow ⊢
    exact List.mem_map_of_mem (List.mem_filter.mpr ⟨hv, (hkept v).mpr hbelow⟩)

/-- A line of a report is one of the findings, under the name of its rule. -/
theorem exists_of_mem_report {findings : List Finding} {v : Violation}
    (h : v ∈ report findings) : ∃ f ∈ findings, f.violation = v := by
  obtain ⟨f, hf, hsame⟩ := exists_of_mem_collect (List.mem_of_mem_filter h)
  refine ⟨f, ?_, hsame⟩
  rcases List.mem_append.mp hf with hf | hf
  · exact (mem_ruleFindings.mp hf).1
  · exact (mem_schemaFindings.mp hf).1

/-- The lines of a report are in order, and no two say the same. -/
theorem pairwise_report (findings : List Finding) :
    ((report findings).map Violation.remark).Pairwise Remark.Before :=
  (pairwise_collect _).sublist (List.filter_sublist.map _)

/-! ## Nothing is lost -/

/-- Of the structural findings above one of them, one lies below no other: going up, the locations
get shorter. -/
theorem exists_topmost {findings : List Finding} {f : Finding} (hf : f ∈ findings)
    (hweight : f.weight = .structural) :
    ∃ top ∈ findings, top.weight = .structural ∧ top.location <+: f.location ∧
      ∀ location ∈ structuralLocations findings, top.location.isStrictlyBelow location = false := by
  induction hlength : f.location.length using Nat.strongRecOn generalizing f with
  | _ n ih =>
    by_cases habove :
      ∃ location ∈ structuralLocations findings, f.location.isStrictlyBelow location = true
    · obtain ⟨location, hlocation, hbelow⟩ := habove
      obtain ⟨g, hg, hgweight, rfl⟩ := mem_structuralLocations.mp hlocation
      obtain ⟨hbegins, hshorter⟩ := (FieldPath.isStrictlyBelow_iff _ _).mp hbelow
      obtain ⟨top, htop, htopweight, hbegins', hbelow'⟩ :=
        ih _ (hlength ▸ hshorter) hg hgweight rfl
      exact ⟨top, htop, htopweight, hbegins'.trans hbegins, hbelow'⟩
    · refine ⟨f, hf, hweight, List.prefix_rfl, ?_⟩
      intro location hlocation
      rw [Bool.eq_false_iff]
      exact fun hbelow => habove ⟨location, hlocation, hbelow⟩

theorem exists_line_of_due {findings : List Finding} {r : Remark} (h : Due findings r) :
    ∃ v ∈ report findings, v.remark = r :=
  List.mem_map.mp ((mem_report_iff findings r).mpr h)

/-- In the place of a structural finding or above it the report says something. -/
theorem exists_line_of_structural {findings : List Finding} {location : FieldPath}
    (h : location ∈ structuralLocations findings) :
    ∃ v ∈ report findings, v.location <+: location := by
  obtain ⟨f, hf, hweight, rfl⟩ := mem_structuralLocations.mp h
  obtain ⟨top, htop, htopweight, hbegins, hbelow⟩ := exists_topmost hf hweight
  have hdue : Due findings top.remark := ⟨⟨top, htop, rfl, by simp [htopweight]⟩, hbelow⟩
  obtain ⟨v, hv, hsame⟩ := exists_line_of_due hdue
  have hlocation : v.location = top.location := congrArg Prod.fst hsame
  exact ⟨v, hv, hlocation ▸ hbegins⟩

/-- What was found is said itself, if the schema does not find it in a place that a rule has spoken
for, or else something is said above it. -/
theorem exists_line_or_above {findings : List Finding} {f : Finding} (hf : f ∈ findings)
    (hspoken : f.weight = .schema → f.location ∉ structuralLocations findings) :
    ∃ v ∈ report findings, v.remark = f.remark ∨
      v.location <+: f.location ∧ v.location.length < f.location.length := by
  by_cases habove :
    ∃ location ∈ structuralLocations findings, f.location.isStrictlyBelow location = true
  · obtain ⟨location, hlocation, hbelow⟩ := habove
    obtain ⟨hbegins, hshorter⟩ := (FieldPath.isStrictlyBelow_iff _ _).mp hbelow
    obtain ⟨v, hv, hline⟩ := exists_line_of_structural hlocation
    exact ⟨v, hv, .inr ⟨hline.trans hbegins, hline.length_le.trans_lt hshorter⟩⟩
  · have hdue : Due findings f.remark := by
      refine ⟨⟨f, hf, rfl, hspoken⟩, ?_⟩
      intro location hlocation
      rw [Bool.eq_false_iff]
      exact fun hbelow => habove ⟨location, hlocation, hbelow⟩
    obtain ⟨v, hv, hsame⟩ := exists_line_of_due hdue
    exact ⟨v, hv, .inl hsame⟩

/-- Of everything that was found the report says something in its place or above. -/
theorem exists_line {findings : List Finding} {f : Finding} (hf : f ∈ findings) :
    ∃ v ∈ report findings, v.location <+: f.location := by
  by_cases hcovered : f.location ∈ structuralLocations findings
  · exact exists_line_of_structural hcovered
  · obtain ⟨v, hv, hsame | ⟨hbegins, -⟩⟩ := exists_line_or_above hf (fun _ => hcovered)
    · have hlocation : v.location = f.location := congrArg Prod.fst hsame
      exact ⟨v, hv, hlocation ▸ List.prefix_rfl⟩
    · exact ⟨v, hv, hbegins⟩

/-- A report is empty only if nothing was found. -/
theorem report_eq_nil_iff (findings : List Finding) : report findings = [] ↔ findings = [] := by
  constructor
  · intro hempty
    by_contra hne
    obtain ⟨f, hf⟩ := List.exists_mem_of_ne_nil findings hne
    obtain ⟨v, hv, -⟩ := exists_line hf
    exact List.ne_nil_of_mem hv hempty
  · rintro rfl
    rfl

end CauseLists
