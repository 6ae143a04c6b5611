-- Building a registry. Rule sets are added one after another, and it ends at the first one whose
-- list type is taken. Otherwise the registry holds the rule sets that were added in the order of
-- their list types, and there is only one such order.
import CauseLists.Proofs.ListType
import CauseLists.RuleSet.Registry
import Mathlib.Data.List.Nodup

namespace CauseLists

/-! ## The order of list types -/

namespace ListType

variable {a b c : ListType}

theorem precedes_iff : a.precedes b = true ↔ a.name < b.name := by
  rw [precedes, decide_eq_true_eq]

theorem not_precedes_self (a : ListType) : ¬ a.precedes a = true := by
  rw [precedes_iff]
  exact String.lt_irrefl _

theorem precedes_trans (hab : a.precedes b = true) (hbc : b.precedes c = true) :
    a.precedes c = true := by
  rw [precedes_iff] at hab hbc ⊢
  exact String.lt_trans hab hbc

theorem precedes_of_not (h : ¬ a.precedes b = true) (hne : a ≠ b) : b.precedes a = true := by
  rw [precedes_iff, ← String.not_le, not_not] at h
  rw [precedes_iff, ← String.not_le]
  intro hle
  exact hne (name_inj.mp (String.le_antisymm hle h))

end ListType

namespace Registry

/-! ## Rule sets in order -/

/-- Rule sets stand in the order of their list types, and each list type has one at most. -/
def InOrder (ruleSets : List RuleSet) : Prop :=
  (ruleSets.map RuleSet.listType).Pairwise (fun a b => a.precedes b = true)

variable {ruleSets others : List RuleSet}

theorem InOrder.nodup (h : InOrder ruleSets) : (ruleSets.map RuleSet.listType).Nodup := by
  refine h.imp ?_
  rintro a b hab rfl
  exact a.not_precedes_self hab

/-- Rule sets have one order only. -/
theorem InOrder.eq_of_perm (h : InOrder ruleSets) (h' : InOrder others)
    (hperm : ruleSets.Perm others) : ruleSets = others := by
  refine hperm.eq_of_pairwise ?_ (List.pairwise_map.mp h) (List.pairwise_map.mp h')
  intro s t _ _ hst hts
  exact absurd (ListType.precedes_trans hst hts) (ListType.not_precedes_self _)

theorem place_perm (s : RuleSet) (ruleSets : List RuleSet) :
    (place s ruleSets).Perm (s :: ruleSets) := by
  induction ruleSets with
  | nil => exact .refl _
  | cons t rest ih =>
    unfold place
    split
    · exact .refl _
    · exact (ih.cons t).trans (.swap s t rest)

theorem InOrder.place {s : RuleSet} (h : InOrder ruleSets)
    (hfree : s.listType ∉ ruleSets.map RuleSet.listType) : InOrder (place s ruleSets) := by
  induction ruleSets with
  | nil => exact List.pairwise_singleton _ _
  | cons t rest ih =>
    obtain ⟨hfirst, hrest⟩ := List.pairwise_cons.mp h
    obtain ⟨hne, hout⟩ := List.ne_and_not_mem_of_not_mem_cons hfree
    unfold Registry.place
    split
    · rename_i hprecedes
      refine List.pairwise_cons.mpr ⟨?_, h⟩
      intro later hlater
      rcases List.mem_cons.mp hlater with rfl | hlater
      · exact hprecedes
      · exact ListType.precedes_trans hprecedes (hfirst later hlater)
    · rename_i hnot
      refine List.pairwise_cons.mpr ⟨?_, ih hrest hout⟩
      intro later hlater
      rw [((place_perm s rest).map RuleSet.listType).mem_iff] at hlater
      rcases List.mem_cons.mp hlater with rfl | hlater
      · exact ListType.precedes_of_not hnot hne
      · exact hfirst later hlater

/-! ## Adding -/

theorem get?_eq_some_iff {r : Registry} (h : InOrder r.ruleSets) {t : ListType} {s : RuleSet} :
    r.get? t = some s ↔ s ∈ r.ruleSets ∧ s.listType = t := by
  unfold get?
  constructor
  · intro hfind
    exact ⟨List.mem_of_find?_eq_some hfind, by simpa using List.find?_some hfind⟩
  · rintro ⟨hmem, rfl⟩
    cases hfind : r.ruleSets.find? (fun other => other.listType = s.listType) with
    | none => exact absurd (decide_eq_true rfl) (List.find?_eq_none.mp hfind s hmem)
    | some other =>
      have hsame : other.listType = s.listType := by simpa using List.find?_some hfind
      rw [List.inj_on_of_nodup_map h.nodup (List.mem_of_find?_eq_some hfind) hmem hsame]

theorem get?_eq_none_iff {r : Registry} {t : ListType} :
    r.get? t = none ↔ ∀ s ∈ r.ruleSets, s.listType ≠ t := by
  simp [get?, List.find?_eq_none]

theorem contains_iff {r : Registry} {t : ListType} :
    r.contains t = true ↔ t ∈ r.ruleSets.map RuleSet.listType := by
  simp [contains, get?, List.find?_isSome]

/-- How adding rule sets ends. -/
inductive Ends (ruleSets : List RuleSet) : Except RegistryError Registry → Prop
  | built {r : Registry} (order : InOrder r.ruleSets) (same : r.ruleSets.Perm ruleSets) :
    Ends ruleSets (.ok r)
  /-- The first rule set whose list type another one before it has. -/
  | refused {before after : List RuleSet} {s : RuleSet} (split : ruleSets = before ++ s :: after)
    (distinct : (before.map RuleSet.listType).Nodup)
    (taken : s.listType ∈ before.map RuleSet.listType) :
    Ends ruleSets (.error (.invalid ⟨s.listType.name, .duplicate⟩))

theorem ends_addAll {r : Registry} {before : List RuleSet} (horder : InOrder r.ruleSets)
    (hsame : r.ruleSets.Perm before) (more : List RuleSet) :
    Ends (before ++ more) (r.addAll more) := by
  induction more generalizing r before with
  | nil =>
    rw [List.append_nil]
    exact .built horder hsame
  | cons s rest ih =>
    have htypes := hsame.map RuleSet.listType
    unfold addAll
    split
    · rename_i htaken
      refine .refused rfl (htypes.nodup_iff.mp horder.nodup) ?_
      exact htypes.mem_iff.mp (contains_iff.mp htaken)
    · rename_i hfree
      have hplaced : (place s r.ruleSets).Perm (before ++ [s]) :=
        (place_perm s _).trans ((hsame.cons s).trans (List.perm_append_singleton s before).symm)
      have hmore := ih (r := ⟨place s r.ruleSets⟩)
        (horder.place (fun hmem => hfree (contains_iff.mpr hmem))) hplaced
      rwa [List.append_assoc, List.singleton_append] at hmore

theorem not_nodup_of_taken {before : List RuleSet} {s : RuleSet}
    (htaken : s.listType ∈ before.map RuleSet.listType) (after : List RuleSet) :
    ¬ ((before ++ s :: after).map RuleSet.listType).Nodup := by
  rw [List.map_append, List.map_cons, List.nodup_append']
  rintro ⟨-, -, hdisjoint⟩
  exact hdisjoint htaken List.mem_cons_self

theorem ends_ofRuleSets (ruleSets : List RuleSet) : Ends ruleSets (ofRuleSets ruleSets) :=
  ends_addAll (r := empty) List.Pairwise.nil (.refl _) ruleSets

theorem inOrder_of_ofRuleSets {r : Registry} (h : ofRuleSets ruleSets = .ok r) :
    InOrder r.ruleSets ∧ r.ruleSets.Perm ruleSets := by
  have hends := ends_ofRuleSets ruleSets
  rw [h] at hends
  cases hends with
  | built horder hsame => exact ⟨horder, hsame⟩

theorem exists_of_ofRuleSets_error {e : RegistryError} (h : ofRuleSets ruleSets = .error e) :
    ∃ before s after, ruleSets = before ++ s :: after ∧ (before.map RuleSet.listType).Nodup ∧
      s.listType ∈ before.map RuleSet.listType ∧ e = .invalid ⟨s.listType.name, .duplicate⟩ := by
  have hends := ends_ofRuleSets ruleSets
  rw [h] at hends
  cases hends with
  | refused hsplit hdistinct htaken => exact ⟨_, _, _, hsplit, hdistinct, htaken, rfl⟩

theorem exists_ofRuleSets_iff :
    (∃ r, ofRuleSets ruleSets = .ok r) ↔ (ruleSets.map RuleSet.listType).Nodup := by
  constructor
  · rintro ⟨r, h⟩
    obtain ⟨horder, hsame⟩ := inOrder_of_ofRuleSets h
    exact (hsame.map RuleSet.listType).nodup_iff.mp horder.nodup
  · intro hnodup
    cases h : ofRuleSets ruleSets with
    | ok r => exact ⟨r, rfl⟩
    | error e =>
      obtain ⟨before, s, after, rfl, -, htaken, -⟩ := exists_of_ofRuleSets_error h
      exact absurd hnodup (not_nodup_of_taken htaken after)

/-- A registry is built exactly from the rule sets that it holds, and in order. -/
theorem ofRuleSets_eq_ok_iff {r : Registry} :
    ofRuleSets ruleSets = .ok r ↔ InOrder r.ruleSets ∧ r.ruleSets.Perm ruleSets := by
  constructor
  · exact inOrder_of_ofRuleSets
  · rintro ⟨horder, hsame⟩
    obtain ⟨built, hbuilt⟩ := exists_ofRuleSets_iff.mpr
      ((hsame.map RuleSet.listType).nodup_iff.mp horder.nodup)
    obtain ⟨horder', hsame'⟩ := inOrder_of_ofRuleSets hbuilt
    have hrules := horder'.eq_of_perm horder (hsame'.trans hsame.symm)
    cases r
    cases built
    cases hrules
    exact hbuilt

/-! ## What a registry answers -/

/-- A registry holds some rule sets: it gives each of them for its list type and knows no other list
type. -/
structure Holds (r : Registry) (ruleSets : List RuleSet) : Prop where
  known : ∀ t s, r.rulesFor t = .ok s ↔ s ∈ ruleSets ∧ s.listType = t
  unknown : ∀ t e, r.rulesFor t = .error e ↔
    e = .unknownListType t ∧ ∀ s ∈ ruleSets, s.listType ≠ t
  increasing : r.listTypes.Pairwise (fun a b => a.precedes b = true)

theorem rulesFor_eq_ok_iff (r : Registry) (listType : ListType) (s : RuleSet) :
    r.rulesFor listType = .ok s ↔ r.get? listType = some s := by
  unfold rulesFor
  cases r.get? listType <;> simp

theorem rulesFor_eq_error_iff {r : Registry} {t : ListType} {e : RegistryError} :
    r.rulesFor t = .error e ↔ e = .unknownListType t ∧ r.get? t = none := by
  unfold rulesFor
  cases r.get? t with
  | none => simp [eq_comm]
  | some s => simp

theorem holds_of_ofRuleSets {r : Registry} (h : ofRuleSets ruleSets = .ok r) :
    r.Holds ruleSets := by
  obtain ⟨horder, hsame⟩ := ofRuleSets_eq_ok_iff.mp h
  constructor
  · intro t s
    rw [rulesFor_eq_ok_iff, get?_eq_some_iff horder, hsame.mem_iff]
  · intro t e
    rw [rulesFor_eq_error_iff, get?_eq_none_iff]
    simp only [hsame.mem_iff]
  · exact horder

end Registry

end CauseLists
