-- Which paths survive being written. Of all the texts of a path its own one is the shortest, so the
-- reader finds the path in it only if it has nothing to take away: no blank at an end and no mark
-- of the root. What is left to ask is that every step can be written at all.
import CauseLists.FieldPath.Form
import CauseLists.Proofs.FieldPath.Grammar

namespace CauseLists.FieldPath

/-! ## The text of a path -/

/-- The characters of some steps behind another one. -/
def moreChars (p : FieldPath) : List Char := p.flatMap (fun s => (stepText s).toList)

theorem toList_join_stepText (p : FieldPath) :
    (String.join (p.map stepText)).toList = moreChars p := by
  simp [moreChars, String.toList_join, List.flatMap_map]

theorem toList_stepText_key (name : String) :
    (stepText (.key name)).toList = '.' :: name.toList := by
  simp [stepText]

theorem toList_stepText_each : (stepText .each).toList = ['[', '*', ']'] := rfl

theorem toList_stepText_index (i : Nat) :
    (stepText (.index i)).toList = '[' :: (Nat.toDigits 10 i ++ [']']) := by
  simp [stepText]

theorem toList_text_key (name : String) (rest : FieldPath) :
    (text (.key name :: rest)).toList = name.toList ++ moreChars rest := by
  rw [text, String.toList_append, toList_join_stepText]

/-- The text of a path starts with its first key, or with a bracket and then goes on as behind
another step. -/
theorem toList_text_bracket {s : Segment} (h : ∀ name, s ≠ .key name) (rest : FieldPath) :
    ∃ cs, (text (s :: rest)).toList = '[' :: cs ∧ moreChars (s :: rest) = '[' :: cs := by
  have htext : (text (s :: rest)).toList = moreChars (s :: rest) := by
    rw [text, String.toList_append, toList_join_stepText, moreChars, moreChars, List.flatMap_cons]
    exact h
  have hbracket : ∃ cs, moreChars (s :: rest) = '[' :: cs := by
    rw [moreChars, List.flatMap_cons]
    cases s with
    | key name => exact absurd rfl (h name)
    | each => exact ⟨_, rfl⟩
    | index i => exact ⟨_, by rw [toList_stepText_index]; rfl⟩
  obtain ⟨cs, hcs⟩ := hbracket
  exact ⟨cs, htext.trans hcs, hcs⟩

/-! ## Paths that can be written -/

/-- Every step of a path can be written: a key has characters and none with a meaning, and an index
is one of 64 bits. -/
structure Writable (p : FieldPath) : Prop where
  keys : ∀ name, .key name ∈ p → IsKeyText name.toList
  indices : ∀ i, .index i ∈ p → i ≤ Text.maxWord64

theorem Writable.tail {s : Segment} {rest : FieldPath} (h : Writable (s :: rest)) :
    Writable rest :=
  ⟨fun name hname => h.keys name (List.mem_cons_of_mem s hname),
    fun i hi => h.indices i (List.mem_cons_of_mem s hi)⟩

theorem writable_cons {s : Segment} {rest : FieldPath} (hkey : ∀ name, s = .key name →
    IsKeyText name.toList) (hindex : ∀ i, s = .index i → i ≤ Text.maxWord64) (h : Writable rest) :
    Writable (s :: rest) := by
  constructor
  · intro name hname
    rcases List.mem_cons.mp hname with hname | hname
    · exact hkey name hname.symm
    · exact h.keys name hname
  · intro i hi
    rcases List.mem_cons.mp hi with hi | hi
    · exact hindex i hi.symm
    · exact h.indices i hi

theorem writesInner_index {i : Nat} (h : i ≤ Text.maxWord64) :
    WritesInner (.index i) (Nat.toDigits 10 i) := by
  have hinner := @WritesInner.index [] (Nat.toDigits 10 i) (.inl rfl) Nat.toDigits_ne_nil
    (Text.digits_toDigits i) (by rwa [Text.valueOf_toDigits])
  rwa [Text.valueOf_toDigits] at hinner

/-- A path that can be written is written by its text. -/
theorem Writable.writesMore {p : FieldPath} (h : p.Writable) : WritesMore p (moreChars p) := by
  induction p with
  | nil => exact .nil
  | cons s rest ih =>
    have hrest := ih h.tail
    cases s with
    | key name =>
      have hmore := WritesMore.key (h.keys name List.mem_cons_self) hrest
      simpa [moreChars, toList_stepText_key] using hmore
    | each => exact .bracket .each hrest
    | index i =>
      have hinner := writesInner_index (h.indices i List.mem_cons_self)
      have hmore := WritesMore.bracket hinner hrest
      simpa [moreChars, toList_stepText_index] using hmore

/-- A path that is not empty and can be written is written by its text. -/
theorem Writable.writes {p : FieldPath} (h : p.Writable) (hsome : p ≠ []) :
    Writes p p.text.toList := by
  cases p with
  | nil => exact absurd rfl hsome
  | cons s rest =>
    by_cases hkey : ∃ name, s = .key name
    · obtain ⟨name, rfl⟩ := hkey
      have hwrites := Writes.key (h.keys name List.mem_cons_self) h.tail.writesMore
      rwa [String.ofList_toList, ← toList_text_key] at hwrites
    · obtain ⟨cs, htext, hmore⟩ := toList_text_bracket (not_exists.mp hkey) rest
      have hwrites := h.writesMore
      rw [hmore] at hwrites
      rw [htext]
      exact expects_inBracket_iff_writes.mp (expects_inBracket_iff.mpr hwrites)

/-! ## No shorter text -/

theorem WritesInner.indexed {i : Nat} {inner : List Char} (h : WritesInner (.index i) inner) :
    (Nat.toDigits 10 i).length ≤ inner.length ∧ i ≤ Text.maxWord64 := by
  cases h with
  | @index sign digits hsign hsome hdigits hbound =>
    have hshort := Text.length_toDigits_valueOf_le hsome hdigits
    rw [List.length_append]
    exact ⟨by omega, hbound⟩

theorem WritesInner.length_stepText_le {s : Segment} {inner : List Char} (h : WritesInner s inner) :
    (stepText s).toList.length ≤ inner.length + 2 := by
  cases s with
  | key name => cases h
  | each =>
    cases h
    rw [toList_stepText_each]
    decide
  | index i =>
    have hshort := h.indexed.1
    simp only [toList_stepText_index, List.length_cons, List.length_append, List.length_nil]
    omega

theorem WritesMore.length_moreChars_le {p : FieldPath} {cs : List Char} (h : WritesMore p cs) :
    (moreChars p).length ≤ cs.length := by
  induction h with
  | nil => exact Nat.le_refl 0
  | key hkey hrest ih =>
    simp only [moreChars, List.flatMap_cons, toList_stepText_key, String.toList_ofList,
      List.length_append, List.length_cons] at ih ⊢
    omega
  | bracket h hrest ih =>
    have hstep := h.length_stepText_le
    simp only [moreChars, List.flatMap_cons, List.length_append, List.length_cons] at ih ⊢
    omega

/-- No text of a path is shorter than its own one, but for the root. -/
theorem Writes.length_text_le {p : FieldPath} {cs : List Char} (h : Writes p cs) (hsome : p ≠ []) :
    p.text.toList.length ≤ cs.length := by
  cases h with
  | root => exact absurd rfl hsome
  | key hkey hrest =>
    have hmore := hrest.length_moreChars_le
    rw [toList_text_key, String.toList_ofList, List.length_append, List.length_append]
    omega
  | @bracket s inner cs rest h hrest =>
    have hkey : ∀ name, s ≠ .key name := by
      rintro name rfl
      cases h
    obtain ⟨more, htext, hmore⟩ := toList_text_bracket hkey rest
    have hlength := (WritesMore.bracket h hrest).length_moreChars_le
    rwa [hmore, ← htext] at hlength

/-- What is written of a path shows that it can be. -/
theorem WritesMore.writable {p : FieldPath} {cs : List Char} (h : WritesMore p cs) :
    p.Writable := by
  induction h with
  | nil => exact ⟨by simp, by simp⟩
  | @key name cs rest hkey hrest ih =>
    refine writable_cons ?_ (by simp) ih
    rintro _ ⟨⟩
    rwa [String.toList_ofList]
  | @bracket s inner cs rest h hrest ih =>
    refine writable_cons ?_ ?_ ih
    · rintro name rfl
      cases h
    · rintro i rfl
      exact h.indexed.2

theorem Writes.writable {p : FieldPath} {cs : List Char} (h : Writes p cs) : p.Writable := by
  cases h with
  | root => exact ⟨by simp, by simp⟩
  | key hkey hrest => exact (WritesMore.key hkey hrest).writable
  | bracket hinner hrest => exact (WritesMore.bracket hinner hrest).writable

/-! ## Writing and reading -/

/-- Nothing of the text of a path is taken away when it is read: it neither starts nor ends with
white space, and its first step is no key with the mark of the root in front. -/
structure Kept (p : FieldPath) : Prop where
  unmarked : ∀ name rest, p = .key name :: rest → name.toList.head? ≠ some '$'
  head : ∀ c ∈ p.text.toList.head?, Text.isBlank c = false
  last : ∀ c ∈ p.text.toList.getLast?, Text.isBlank c = false

theorem head?_text {p : FieldPath} (hsome : p ≠ []) (hwritable : p.Writable) :
    p.text.toList.head? = some '$' ↔ ∃ name rest, p = .key name :: rest ∧
      name.toList.head? = some '$' := by
  cases p with
  | nil => exact absurd rfl hsome
  | cons s rest =>
    by_cases hkey : ∃ name, s = .key name
    · obtain ⟨name, rfl⟩ := hkey
      obtain ⟨c, cs, hname⟩ :=
        List.exists_cons_of_ne_nil (hwritable.keys name List.mem_cons_self).1
      rw [toList_text_key, hname]
      constructor
      · intro h
        exact ⟨name, rest, rfl, by rw [hname]; exact h⟩
      · rintro ⟨_, _, ⟨⟩, h⟩
        rwa [hname] at h
    · obtain ⟨cs, htext, -⟩ := toList_text_bracket (not_exists.mp hkey) rest
      rw [htext]
      constructor
      · intro h
        cases h
      · rintro ⟨name, _, ⟨⟩, -⟩
        exact absurd ⟨name, rfl⟩ hkey

/-- A text spells its path exactly if the path can be written and nothing of the text is taken
away. -/
theorem spells_text_iff {p : FieldPath} (hsome : p ≠ []) :
    Spells p.text p ↔ p.Writable ∧ p.Kept := by
  constructor
  · rintro ⟨trimmed, cs, ⟨front, back, htext, hfront, hback, hhead, hlast⟩, hmarked, hwrites⟩
    -- What the reader goes by is no longer than the text, and the text has no character to spare.
    have hlength := hwrites.length_text_le hsome
    rw [htext, List.length_append, List.length_append] at hlength
    cases hmarked with
    | dollar h =>
      simp only [List.length_cons] at hlength
      omega
    | dollarDot =>
      simp only [List.length_cons] at hlength
      omega
    | unmarked hdollar =>
      obtain rfl : front = [] := List.length_eq_zero_iff.mp (by omega)
      obtain rfl : back = [] := List.length_eq_zero_iff.mp (by omega)
      obtain rfl : p.text.toList = trimmed := by simpa using htext
      refine ⟨hwrites.writable, ?_, hhead, hlast⟩
      intro name rest hp hname
      exact hdollar ((head?_text hsome hwrites.writable).mpr ⟨name, rest, hp, hname⟩)
  · rintro ⟨hwritable, hunmarked, hhead, hlast⟩
    refine ⟨p.text.toList, p.text.toList, ⟨[], [], by simp, by simp, by simp, hhead, hlast⟩,
      .unmarked ?_, hwritable.writes hsome⟩
    rw [Ne, head?_text hsome hwritable]
    rintro ⟨name, rest, hp, hname⟩
    exact hunmarked name rest hp hname

theorem parse_text_eq_ok_iff (p : FieldPath) :
    parse p.text = .ok p ↔ p = [] ∨ p.Writable ∧ p.Kept := by
  by_cases hroot : p = []
  · subst hroot
    exact ⟨fun _ => .inl rfl, fun _ => by decide +kernel⟩
  · rw [parse_eq_ok_iff, spells_text_iff hroot, or_iff_right hroot]

theorem read_toJson_eq_ok_iff (p q : FieldPath) : read p.toJson = .ok q ↔ parse p.text = .ok q := by
  have htext : p.toJson.asText = .ok p.text := rfl
  simp only [read, htext, bind, Except.bind]
  cases parse p.text <;> simp

theorem parse_cases (text : String) :
    (∃ p, parse text = .ok p) ∨ ∃ fault, parse text = .error ⟨text, fault⟩ := by
  unfold parse
  split
  · exact .inl ⟨_, rfl⟩
  · exact .inr ⟨_, rfl⟩

/-- A path that was read can be written. -/
theorem writable_of_parse {text : String} {p : FieldPath} (h : parse text = .ok p) :
    p.Writable := by
  obtain ⟨trimmed, cs, -, -, hwrites⟩ := (parse_eq_ok_iff text p).mp h
  exact hwrites.writable

/-- Which paths survive being written. The text of a path is read as that path exactly if it is the
root, or if every step can be written and nothing of the text is taken away; the text of every
other path is read as another path or not at all. A path that travels as its text arrives exactly
if it survives so, and one that was read itself from a text exactly if it is the root or nothing
of its own text is taken away. -/
theorem what_is_written_is_read_back (p : FieldPath) :
    (parse p.text = .ok p ↔ p = [] ∨ p.Writable ∧ p.Kept) ∧
      (¬(p = [] ∨ p.Writable ∧ p.Kept) → (∃ q, q ≠ p ∧ parse p.text = .ok q) ∨
        ∃ fault, parse p.text = .error ⟨p.text, fault⟩) ∧
      (read p.toJson = .ok p ↔ p = [] ∨ p.Writable ∧ p.Kept) ∧
      ∀ text, parse text = .ok p → (read p.toJson = .ok p ↔ p = [] ∨ p.Kept) := by
  have hread : read p.toJson = .ok p ↔ p = [] ∨ p.Writable ∧ p.Kept :=
    (read_toJson_eq_ok_iff p p).trans (parse_text_eq_ok_iff p)
  refine ⟨parse_text_eq_ok_iff p, ?_, hread, ?_⟩
  · intro hlost
    rw [← parse_text_eq_ok_iff] at hlost
    refine (parse_cases p.text).imp_left ?_
    rintro ⟨q, hq⟩
    refine ⟨q, ?_, hq⟩
    rintro rfl
    exact hlost hq
  · intro text h
    rw [hread, and_iff_right (writable_of_parse h)]

/-! A key with a dollar sign in front, read from a text that marks the root as well: its own text
has only the one, and that is taken for the mark. -/

theorem a_second_dollar_is_lost :
    parse "$$venue" = .ok [.key "$venue"] ∧ text [.key "$venue"] = "$venue" ∧
      ¬([.key "$venue"] = ([] : FieldPath) ∨ Kept [.key "$venue"]) ∧
      (∃ q, q ≠ [.key "$venue"] ∧ parse (text [.key "$venue"]) = .ok q) ∧
      read (toJson [.key "$venue"]) ≠ .ok [.key "$venue"] := by
  obtain ⟨-, hother, hread, harrives⟩ := what_is_written_is_read_back [.key "$venue"]
  have hparse : parse "$$venue" = .ok [.key "$venue"] := by decide +kernel
  have hlost : ¬([.key "$venue"] = ([] : FieldPath) ∨ Kept [.key "$venue"]) := by
    rintro (h | h)
    · cases h
    · exact absurd (h.unmarked "$venue" [] rfl) (by decide +kernel)
  have hnotRead := mt (harrives "$$venue" hparse).mp hlost
  refine ⟨hparse, by decide +kernel, hlost, ?_, hnotRead⟩
  rcases hother (mt hread.mpr hnotRead) with hq | ⟨fault, hfault⟩
  · exact hq
  · have hok : parse (text [.key "$venue"]) = .ok [.key "venue"] := by decide +kernel
    cases hok.symm.trans hfault

end CauseLists.FieldPath
