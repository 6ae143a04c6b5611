-- What the names of list types are made of. There is no slash in them, which is why a name can
-- stand in a location without being taken for more than one part of it. A list type is read from
-- its name in any case and with white space around it, and from nothing else.
import CauseLists.ListType
import CauseLists.Proofs.Text.Case
import Mathlib.Data.List.Basic

namespace CauseLists.ListType

/-- A list type is told by its name. -/
theorem name_inj {a b : ListType} : a.name = b.name ↔ a = b := by
  cases a
  cases b
  rw [mk.injEq]

/-- What stands in words with a separator between them is the separator or stands in a word. -/
theorem mem_intercalate {α : Type} {separator c : α} {ws : List (List α)}
    (h : c ∈ [separator].intercalate ws) : c = separator ∨ ∃ w ∈ ws, c ∈ w := by
  match ws with
  | [] => simp at h
  | [w] =>
    rw [List.intercalate_singleton] at h
    exact .inr ⟨w, List.mem_cons_self, h⟩
  | w :: v :: rest =>
    rw [List.intercalate_cons_cons, List.mem_append, List.mem_append] at h
    rcases h with (hw | hseparator) | hrest
    · exact .inr ⟨w, List.mem_cons_self, hw⟩
    · exact .inl (List.mem_singleton.mp hseparator)
    · rcases mem_intercalate hrest with hc | ⟨u, hu, hc⟩
      · exact .inl hc
      · exact .inr ⟨u, List.mem_cons_of_mem w hu, hc⟩

theorem mem_name (t : ListType) {c : Char} (h : c ∈ t.name.toList) :
    c = '_' ∨ isWordChar c = true := by
  have hcanonical := t.canonical
  rw [isCanonical, List.all_eq_true] at hcanonical
  have hjoin : ['_'].intercalate (words t.name) = t.name.toList := List.intercalate_splitOn '_'
  rw [← hjoin] at h
  rcases mem_intercalate h with hc | ⟨w, hw, hc⟩
  · exact .inl hc
  · have hword := hcanonical w hw
    rw [Bool.and_eq_true, List.all_eq_true] at hword
    exact .inr (hword.2 c hc)

theorem slash_notMem_name (t : ListType) : '/' ∉ t.name.toList := by
  intro h
  rcases t.mem_name h with hc | hc
  · exact absurd hc (by decide)
  · exact absurd hc (by decide)

/-! ## Reading -/

theorem toNat_of_isWordChar {c : Char} (h : isWordChar c = true) :
    48 ≤ c.toNat ∧ c.toNat ≤ 90 := by
  rw [isWordChar, Bool.or_eq_true, Bool.and_eq_true, Bool.and_eq_true] at h
  simp only [decide_eq_true_eq] at h
  rcases h with ⟨hlow, hhigh⟩ | ⟨hlow, hhigh⟩
  · exact ⟨Nat.le_trans (by decide) (show 65 ≤ c.toNat from hlow), hhigh⟩
  · exact ⟨hlow, Nat.le_trans (show c.toNat ≤ 57 from hhigh) (by decide)⟩

theorem toNat_of_mem_name (t : ListType) {c : Char} (h : c ∈ t.name.toList) :
    48 ≤ c.toNat ∧ c.toNat ≤ 95 := by
  rcases t.mem_name h with rfl | hword
  · decide
  · have := toNat_of_isWordChar hword
    omega

theorem trim_name (t : ListType) : Text.trim t.name = t.name := by
  refine Text.trim_of_forall_not_isBlank ?_
  intro c hc
  have := t.toNat_of_mem_name hc
  simp only [Text.isBlank]
  grind

theorem upperAscii_name (t : ListType) : Text.upperAscii t.name = t.name := by
  have hmap : t.name.toList.map Char.toUpper = t.name.toList := by
    refine (List.map_congr_left ?_).trans (List.map_id _)
    intro c hc
    have := t.toNat_of_mem_name hc
    exact Text.toUpper_of_not_lower (by omega)
  rw [Text.upperAscii, hmap, String.ofList_toList]

theorem parse_eq_ok_iff (text : String) (t : ListType) :
    parse text = .ok t ↔ t.name = Text.upperAscii (Text.trim text) := by
  obtain ⟨name, hcanonical⟩ := t
  unfold parse
  dsimp only
  split
  · rw [Except.ok.injEq, ListType.mk.injEq]
    exact eq_comm
  · rename_i hnot
    simp only [reduceCtorEq, false_iff]
    rintro rfl
    exact hnot hcanonical

/-- A list type is read from its own name. -/
theorem parse_name (t : ListType) : parse t.name = .ok t := by
  rw [parse_eq_ok_iff, t.trim_name, t.upperAscii_name]

/-! The names of the list types of the examples. -/

theorem isCanonical_daily : isCanonical "DAILY_LIST" = true := by decide

theorem isCanonical_weekly : isCanonical "WEEKLY_LIST" = true := by decide

end CauseLists.ListType
