-- The case of letters. Raising the letters of a text leaves its white space where it is, so it
-- makes no difference whether a text is trimmed before or after.
import CauseLists.Proofs.Text.Trimming
import Mathlib.Data.List.Forall2

namespace CauseLists.Text

theorem toUpper_of_not_lower {c : Char} (h : ¬ (97 ≤ c.toNat ∧ c.toNat ≤ 122)) :
    c.toUpper = c := by
  unfold Char.toUpper
  exact dif_neg h

theorem toNat_toUpper (c : Char) :
    c.toUpper.toNat = if 97 ≤ c.toNat ∧ c.toNat ≤ 122 then c.toNat - 32 else c.toNat := by
  split
  · rename_i h
    have hlower : 'a'.val ≤ c.val ∧ c.val ≤ 'z'.val := h
    unfold Char.toUpper
    rw [dif_pos hlower]
    show (c.val + ('A'.val - 'a'.val)).toNat = c.val.toNat - 32
    have hdiff : ('A'.val - 'a'.val).toNat = 2 ^ 32 - 32 := by decide
    change 97 ≤ c.val.toNat ∧ c.val.toNat ≤ 122 at h
    rw [UInt32.toNat_add, hdiff]
    omega
  · rename_i h
    rw [toUpper_of_not_lower h]

/-- Raising makes white space neither of a letter nor of anything else. -/
theorem isBlank_toUpper (c : Char) : isBlank c.toUpper = isBlank c := by
  by_cases h : 97 ≤ c.toNat ∧ c.toNat ≤ 122
  · have hupper : c.toUpper.toNat = c.toNat - 32 := by rw [toNat_toUpper, if_pos h]
    simp only [isBlank, hupper]
    grind
  · rw [toUpper_of_not_lower h]

theorem trimChars_map_toUpper (cs : List Char) :
    trimChars (cs.map Char.toUpper) = (trimChars cs).map Char.toUpper := by
  have hblank : isBlank ∘ Char.toUpper = isBlank := funext isBlank_toUpper
  simp only [trimChars, List.dropWhile_map, hblank, ← List.map_reverse]

theorem upperAscii_trim (s : String) : upperAscii (trim s) = trim (upperAscii s) := by
  simp [upperAscii, trim, trimChars_map_toUpper]

theorem sameIgnoringCase_iff (s t : String) :
    sameIgnoringCase s t = true ↔ upperAscii s = upperAscii t := by
  simp [sameIgnoringCase]

/-- The same character, or an ASCII letter and its other case. -/
def SameLetter (c d : Char) : Prop :=
  c = d ∨ ('a' ≤ c ∧ c ≤ 'z' ∧ c.toNat = d.toNat + 32) ∨
    ('a' ≤ d ∧ d ≤ 'z' ∧ d.toNat = c.toNat + 32)

theorem isLower_iff (c : Char) : ('a' ≤ c ∧ c ≤ 'z') ↔ 97 ≤ c.toNat ∧ c.toNat ≤ 122 := Iff.rfl

theorem toUpper_eq_toUpper_iff (c d : Char) : c.toUpper = d.toUpper ↔ SameLetter c d := by
  have hc := toNat_toUpper c
  have hd := toNat_toUpper d
  unfold SameLetter
  rw [← and_assoc, ← and_assoc, isLower_iff, isLower_iff, ← Char.toNat_inj, ← Char.toNat_inj, hc,
    hd]
  split <;> split <;> omega

/-- Texts have one upper case exactly if they are alike letter by letter. -/
theorem upperAscii_eq_upperAscii_iff (s t : String) :
    upperAscii s = upperAscii t ↔ List.Forall₂ SameLetter s.toList t.toList := by
  unfold upperAscii
  rw [String.ofList_inj, ← List.forall₂_eq_eq_eq, List.forall₂_map_left_iff,
    List.forall₂_map_right_iff]
  simp only [toUpper_eq_toUpper_iff]

/-! ## Texts that differ in little -/

/-- The same text but for the white space around it. -/
def SameButBlanks (s t : String) : Prop := ∃ core, Surrounds core s ∧ Surrounds core t

/-- The same text but for the white space around it and the case of its ASCII letters. -/
def SameButCase (s t : String) : Prop :=
  ∃ core core', Surrounds core s ∧ Surrounds core' t ∧ sameIgnoringCase core core' = true

theorem SameButBlanks.trim_eq {s t : String} (h : SameButBlanks s t) : trim s = trim t := by
  obtain ⟨core, hs, ht⟩ := h
  rw [hs.trim_eq, ht.trim_eq]

theorem SameButCase.upperAscii_trim_eq {s t : String} (h : SameButCase s t) :
    upperAscii (trim s) = upperAscii (trim t) := by
  obtain ⟨core, core', hs, ht, hsame⟩ := h
  rw [hs.trim_eq, ht.trim_eq, upperAscii_trim, upperAscii_trim,
    (sameIgnoringCase_iff core core').mp hsame]

end CauseLists.Text
