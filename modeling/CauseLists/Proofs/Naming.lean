-- What list types are called. A list type is named by words of ASCII letters and digits with single
-- underscores between them, in any case and with white space around them; nothing else names one.
-- Its own name is the one of its names that is in upper case, and is a single step down a path.
import CauseLists.Proofs.ListType
import CauseLists.Proofs.Payload.Steps

namespace CauseLists.ListType

/-! ## Names -/

/-- A letter or digit of ASCII. -/
def IsLetterOrDigit (c : Char) : Prop :=
  ('A' ≤ c ∧ c ≤ 'Z') ∨ ('a' ≤ c ∧ c ≤ 'z') ∨ ('0' ≤ c ∧ c ≤ '9')

/-- At least one word of ASCII letters and digits, none of them empty, and one underscore between
each and the next. -/
def IsNaming (cs : List Char) : Prop :=
  ∃ ws : List (List Char), ws ≠ [] ∧ (∀ w ∈ ws, w ≠ [] ∧ ∀ c ∈ w, IsLetterOrDigit c) ∧
    cs = ['_'].intercalate ws

/-- The words of a name are its parts between underscores. -/
theorem isNaming_iff (cs : List Char) :
    IsNaming cs ↔ ∀ w ∈ cs.splitOn '_', w ≠ [] ∧ ∀ c ∈ w, IsLetterOrDigit c := by
  constructor
  · rintro ⟨ws, hne, hwords, rfl⟩
    rw [List.splitOn_intercalate '_' _ hne]
    · exact hwords
    · intro w hw hmem
      exact absurd ((hwords w hw).2 '_' hmem) (by unfold IsLetterOrDigit; decide)
  · intro hwords
    exact ⟨cs.splitOn '_', List.splitOn_ne_nil _ _, hwords, (List.intercalate_splitOn '_').symm⟩

/-! ## Raising a name -/

theorem isWordChar_toUpper_iff (c : Char) : isWordChar c.toUpper = true ↔ IsLetterOrDigit c := by
  have hupper := Text.toNat_toUpper c
  have hcapital : isWordChar c.toUpper = true ↔
      (65 ≤ c.toUpper.toNat ∧ c.toUpper.toNat ≤ 90) ∨
        (48 ≤ c.toUpper.toNat ∧ c.toUpper.toNat ≤ 57) := by
    simp only [isWordChar, Bool.or_eq_true, Bool.and_eq_true, decide_eq_true_eq]
    exact Iff.rfl
  have hplain : IsLetterOrDigit c ↔ (65 ≤ c.toNat ∧ c.toNat ≤ 90) ∨
      (97 ≤ c.toNat ∧ c.toNat ≤ 122) ∨ (48 ≤ c.toNat ∧ c.toNat ≤ 57) := Iff.rfl
  rw [hcapital, hplain, hupper]
  split <;> omega

theorem toUpper_eq_underscore_iff (c : Char) : c.toUpper = '_' ↔ c = '_' := by
  have hupper := Text.toNat_toUpper c
  have hunderscore : '_'.toNat = 95 := rfl
  rw [← Char.toNat_inj, ← Char.toNat_inj, hupper, hunderscore]
  split <;> omega

/-- Splitting does not see a change that makes and unmakes no separator. -/
theorem splitOn_map {α : Type} [BEq α] [LawfulBEq α] {f : α → α} {separator : α}
    (h : ∀ a, f a = separator ↔ a = separator) (as : List α) :
    (as.map f).splitOn separator = (as.splitOn separator).map (List.map f) := by
  induction as with
  | nil => rfl
  | cons a rest ih =>
    rw [List.map_cons, List.splitOn_cons_eq_if_modifyHead, List.splitOn_cons_eq_if_modifyHead, ih]
    by_cases ha : a = separator
    · simp [ha, h]
    · simp only [beq_iff_eq, h, ha, if_false]
      cases rest.splitOn separator <;> rfl

theorem isCanonical_upperAscii_iff (s : String) :
    isCanonical (Text.upperAscii s) = true ↔ IsNaming s.toList := by
  unfold isCanonical words Text.upperAscii
  rw [isNaming_iff, String.toList_ofList, splitOn_map toUpper_eq_underscore_iff, List.all_map,
    List.all_eq_true]
  refine forall_congr' (fun w => imp_congr_right (fun _ => ?_))
  simp [isWordChar_toUpper_iff]

theorem exists_parse_iff (text : String) :
    (∃ t, parse text = .ok t) ↔ IsNaming (Text.trim text).toList := by
  rw [← isCanonical_upperAscii_iff]
  constructor
  · rintro ⟨t, ht⟩
    rw [← (parse_eq_ok_iff text t).mp ht]
    exact t.canonical
  · intro hcanonical
    exact ⟨⟨_, hcanonical⟩, (parse_eq_ok_iff text _).mpr rfl⟩

theorem parse_eq_error_iff {text : String} {e : ListTypeError} :
    parse text = .error e ↔ e = ⟨text⟩ ∧ ¬IsNaming (Text.trim text).toList := by
  rw [← isCanonical_upperAscii_iff]
  unfold parse
  dsimp only
  split
  · rename_i hcanonical
    simp [hcanonical]
  · rename_i hnot
    simp [hnot, eq_comm]

/-! ## One name in a path -/

/-- Neither a separator of paths nor a dot stands in the name of a list type. -/
theorem ne_of_mem_name (t : ListType) {c : Char} (h : c ∈ t.name.toList) :
    c ≠ '/' ∧ c ≠ '\\' ∧ c ≠ '.' := by
  have hbounds := t.toNat_of_mem_name h
  refine ⟨?_, ?_, ?_⟩ <;> rintro rfl
  · exact absurd hbounds (by decide)
  · exact t.mem_name h |>.elim (by decide) (by decide)
  · exact absurd hbounds (by decide)

/-- A text is read as a list type exactly if what white space surrounds in it is words of ASCII
letters and digits with single underscores between them, and otherwise refused as it stands. The
list type goes by these words in upper case, is read back from its own name, and is read from
another text exactly if the two differ in nothing but the case of their letters and the white space
around them. Its name holds nothing that a path could be broken at, and leads from a folder to one
below it. -/
theorem names_in_words_are_read_in_one_form (text : String) :
    Text.Trims text.toList (Text.trim text).toList ∧
    ((∃ t, parse text = .ok t) ↔ IsNaming (Text.trim text).toList) ∧
    (¬IsNaming (Text.trim text).toList → parse text = .error ⟨text⟩) ∧
    ∀ t, parse text = .ok t →
      t.name = Text.upperAscii (Text.trim text) ∧ parse t.name = .ok t ∧
      (∀ other t', parse other = .ok t' →
        (t = t' ↔ List.Forall₂ Text.SameLetter (Text.trim text).toList (Text.trim other).toList)) ∧
      (∀ c ∈ t.name.toList, c ≠ '/' ∧ c ≠ '\\' ∧ c ≠ '.') ∧
      ∀ f : BlobFolder, f.disk.target (f.shelf t) = f.disk.target f.root ++ [t.name] := by
  refine ⟨?_, exists_parse_iff text, ?_, ?_⟩
  · rw [Text.trim, String.toList_ofList]
    exact Text.trims_trimChars text.toList
  · intro hno
    exact parse_eq_error_iff.mpr ⟨rfl, hno⟩
  · intro t ht
    rw [parse_eq_ok_iff] at ht
    refine ⟨ht, t.parse_name, ?_, fun c hc => t.ne_of_mem_name hc, ?_⟩
    · intro other t' ht'
      rw [parse_eq_ok_iff] at ht'
      rw [← name_inj, ht, ht', Text.upperAscii_eq_upperAscii_iff]
    · intro f
      exact Disk.target_join t.isName_name f.disk f.root

/-- A list type with a number in its name is read from two of its spellings, and two underscores in
a row leave a word empty. -/
theorem a_list_type_in_two_spellings :
    ∃ t, parse "\tcrown_t2_list " = .ok t ∧ parse "Crown_T2_List" = .ok t ∧
      t.name = "CROWN_T2_LIST" ∧ parse "CROWN_T2_LIST" = .ok t ∧
      List.Forall₂ Text.SameLetter (Text.trim "\tcrown_t2_list ").toList
        (Text.trim "Crown_T2_List").toList ∧
      ¬IsNaming (Text.trim "CROWN__T2").toList := by
  have hsmall : parse "\tcrown_t2_list " = .ok ⟨"CROWN_T2_LIST", by decide⟩ := rfl
  have hmixed : parse "Crown_T2_List" = .ok ⟨"CROWN_T2_LIST", by decide⟩ := rfl
  obtain ⟨-, -, -, hread⟩ := names_in_words_are_read_in_one_form "\tcrown_t2_list "
  obtain ⟨-, hagain, hsame, -⟩ := hread _ hsmall
  refine ⟨_, hsmall, hmixed, rfl, hagain, (hsame _ _ hmixed).mp rfl, ?_⟩
  intro hnaming
  obtain ⟨t, ht⟩ := (names_in_words_are_read_in_one_form "CROWN__T2").2.1.mpr hnaming
  cases ht

end CauseLists.ListType
