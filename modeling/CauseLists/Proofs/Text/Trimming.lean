-- Trimming. What is left is the text between the white space at its ends: nothing else is taken
-- away, and neither end of it is white space, so trimming it again changes nothing.
import CauseLists.Text.Blank
import Mathlib.Data.List.TakeWhile

namespace CauseLists.Text

/-- A text with white space around it, and neither end of it white space. -/
def Trims (cs trimmed : List Char) : Prop :=
  ∃ front back, cs = front ++ (trimmed ++ back) ∧ (∀ c ∈ front, isBlank c = true) ∧
    (∀ c ∈ back, isBlank c = true) ∧ (∀ c ∈ trimmed.head?, isBlank c = false) ∧
    ∀ c ∈ trimmed.getLast?, isBlank c = false

theorem isBlank_head?_dropWhile (cs : List Char) :
    ∀ c ∈ (cs.dropWhile isBlank).head?, isBlank c = false := by
  intro c hc
  have hnot := List.head?_dropWhile_not isBlank cs
  rw [hc] at hnot
  exact hnot

theorem dropWhile_isBlank_of_head? {cs : List Char} (h : ∀ c ∈ cs.head?, isBlank c = false) :
    cs.dropWhile isBlank = cs := by
  cases cs with
  | nil => rfl
  | cons c rest => rw [List.dropWhile_cons_of_neg (by simp [h c rfl])]

theorem dropWhile_isBlank_append {front cs : List Char} (hfront : ∀ c ∈ front, isBlank c = true)
    (hcs : ∀ c ∈ cs.head?, isBlank c = false) : (front ++ cs).dropWhile isBlank = cs := by
  rw [List.dropWhile_append_of_pos hfront, dropWhile_isBlank_of_head? hcs]

theorem trims_trimChars (cs : List Char) : Trims cs (trimChars cs) := by
  have hback : cs.dropWhile isBlank = trimChars cs ++
      ((cs.dropWhile isBlank).reverse.takeWhile isBlank).reverse := by
    rw [trimChars, ← List.reverse_append, List.takeWhile_append_dropWhile, List.reverse_reverse]
  refine ⟨cs.takeWhile isBlank, ((cs.dropWhile isBlank).reverse.takeWhile isBlank).reverse, ?_,
    fun c hc => List.mem_takeWhile_imp hc, ?_, ?_, ?_⟩
  · rw [← hback, List.takeWhile_append_dropWhile]
  · intro c hc
    exact List.mem_takeWhile_imp (List.mem_reverse.mp hc)
  · -- The first character that is left is that of the text without its leading white space.
    intro c hc
    refine isBlank_head?_dropWhile cs c ?_
    rw [hback, List.head?_append, hc]
    rfl
  · intro c hc
    refine isBlank_head?_dropWhile (cs.dropWhile isBlank).reverse c ?_
    rw [trimChars, List.getLast?_reverse] at hc
    exact hc

theorem trims_iff (cs trimmed : List Char) : Trims cs trimmed ↔ trimmed = trimChars cs := by
  refine ⟨?_, fun h => h ▸ trims_trimChars cs⟩
  rintro ⟨front, back, rfl, hfront, hback, hhead, hlast⟩
  cases trimmed with
  | nil =>
    have hblank : ∀ c ∈ front ++ back, isBlank c = true := fun c hc =>
      (List.mem_append.mp hc).elim (hfront c) (hback c)
    rw [List.nil_append, trimChars, List.dropWhile_eq_nil_iff.mpr hblank]
    rfl
  | cons d rest =>
    have hfirst : (front ++ (d :: rest ++ back)).dropWhile isBlank = d :: rest ++ back :=
      dropWhile_isBlank_append hfront hhead
    have hend : (back.reverse ++ (d :: rest).reverse).dropWhile isBlank = (d :: rest).reverse :=
      dropWhile_isBlank_append (fun c hc => hback c (List.mem_reverse.mp hc))
        (by rwa [List.head?_reverse])
    rw [trimChars, hfirst, List.reverse_append, hend, List.reverse_reverse]

theorem trimChars_trimChars (cs : List Char) : trimChars (trimChars cs) = trimChars cs := by
  obtain ⟨_, _, -, -, -, hhead, hlast⟩ := trims_trimChars cs
  exact ((trims_iff _ _).mp ⟨[], [], by simp, by simp, by simp, hhead, hlast⟩).symm

theorem trim_trim (s : String) : trim (trim s) = trim s := by
  simp [trim, trimChars_trimChars]

theorem trim_eq_empty_iff (s : String) : trim s = "" ↔ isBlankText s = true := by
  rw [trim, String.ofList_eq_empty_iff, isBlankText, List.all_eq_true]
  constructor
  · intro hnil
    obtain ⟨front, back, hsplit, hfront, hback, -, -⟩ := trims_trimChars s.toList
    rw [hnil, List.nil_append] at hsplit
    rw [hsplit]
    exact fun c hc => (List.mem_append.mp hc).elim (hfront c) (hback c)
  · intro hblank
    exact ((trims_iff s.toList []).mp ⟨s.toList, [], by simp, hblank, by simp, by simp,
      by simp⟩).symm

/-- A text without white space is trimmed. -/
theorem trim_of_forall_not_isBlank {s : String} (h : ∀ c ∈ s.toList, isBlank c = false) :
    trim s = s := by
  have htrims : Trims s.toList s.toList := ⟨[], [], by simp, by simp, by simp,
    fun c hc => h c (List.mem_of_mem_head? hc), fun c hc => h c (List.mem_of_getLast? hc)⟩
  rw [trim, ← (trims_iff _ _).mp htrims, String.ofList_toList]

/-! ## White space around a text -/

/-- A text with white space in front of it and behind it. -/
def Surrounds (core s : String) : Prop :=
  ∃ front back, s = front ++ core ++ back ∧ isBlankText front = true ∧ isBlankText back = true

/-- Trimming does not see what surrounds a text. -/
theorem Surrounds.trim_eq {core s : String} (h : Surrounds core s) : trim s = trim core := by
  obtain ⟨front, back, rfl, hfront, hback⟩ := h
  obtain ⟨f, b, hcore, hf, hb, hhead, hlast⟩ := trims_trimChars core.toList
  rw [isBlankText, List.all_eq_true] at hfront hback
  have htrims : Trims (front ++ core ++ back).toList (trimChars core.toList) := by
    refine ⟨front.toList ++ f, b ++ back.toList, ?_, ?_, ?_, hhead, hlast⟩
    · rw [String.toList_append, String.toList_append]
      exact (congrArg (fun cs => front.toList ++ cs ++ back.toList) hcore).trans
        (by simp only [List.append_assoc])
    · exact fun c hc => (List.mem_append.mp hc).elim (hfront c) (hf c)
    · exact fun c hc => (List.mem_append.mp hc).elim (hb c) (hback c)
  rw [trim, ← (trims_iff _ _).mp htrims, trim]

end CauseLists.Text
