-- How paths are written. A text is a path if it is a row of steps, each a key or a bracket, with a
-- dot in front of every key but the first; blanks at its ends, a dollar sign in front of it and a
-- dot behind that do not count. The reader takes one character after the other; what it has still
-- to find in each place is said here, and at the start that is the grammar.
import CauseLists.FieldPath.Basic
import CauseLists.Proofs.Results
import CauseLists.Proofs.Text.Numeral
import CauseLists.Proofs.Text.Trimming

namespace CauseLists.FieldPath

/-! ## The grammar -/

/-- A key as it can be written: some characters, none of which has a meaning in a path. -/
def IsKeyText (name : List Char) : Prop :=
  name ≠ [] ∧ ∀ c ∈ name, c ≠ '.' ∧ c ≠ '[' ∧ c ≠ ']'

/-- What the inside of a bracket writes: every element, or one of them by its number. -/
inductive WritesInner : Segment → List Char → Prop
  | each : WritesInner .each ['*']
  | index {sign digits : List Char} (hsign : sign = [] ∨ sign = ['+']) (hsome : digits ≠ [])
    (hdigits : ∀ c ∈ digits, '0' ≤ c ∧ c ≤ '9') (hbound : Text.valueOf digits ≤ Text.maxWord64) :
    WritesInner (.index (Text.valueOf digits)) (sign ++ digits)

/-- What is written behind a step. -/
inductive WritesMore : FieldPath → List Char → Prop
  | nil : WritesMore [] []
  | key {name cs : List Char} {rest : FieldPath} (h : IsKeyText name)
    (hrest : WritesMore rest cs) :
    WritesMore (.key (String.ofList name) :: rest) ('.' :: (name ++ cs))
  | bracket {s : Segment} {inner cs : List Char} {rest : FieldPath} (h : WritesInner s inner)
    (hrest : WritesMore rest cs) : WritesMore (s :: rest) ('[' :: (inner ++ ']' :: cs))

/-- What is written for a path. No dot stands in front of its first key. -/
inductive Writes : FieldPath → List Char → Prop
  | root : Writes [] []
  | key {name cs : List Char} {rest : FieldPath} (h : IsKeyText name)
    (hrest : WritesMore rest cs) : Writes (.key (String.ofList name) :: rest) (name ++ cs)
  | bracket {s : Segment} {inner cs : List Char} {rest : FieldPath} (h : WritesInner s inner)
    (hrest : WritesMore rest cs) : Writes (s :: rest) ('[' :: (inner ++ ']' :: cs))

/-- A text with the mark of the root in front of it, if it has one. -/
inductive RootMarked : List Char → List Char → Prop
  | unmarked {cs : List Char} (h : cs.head? ≠ some '$') : RootMarked cs cs
  | dollar {cs : List Char} (h : cs.head? ≠ some '.') : RootMarked ('$' :: cs) cs
  | dollarDot {cs : List Char} : RootMarked ('$' :: '.' :: cs) cs

/-- A text is a spelling of a path. -/
def Spells (text : String) (p : FieldPath) : Prop :=
  ∃ trimmed cs, Text.Trims text.toList trimmed ∧ RootMarked trimmed cs ∧ Writes p cs

/-! ## Single steps -/

theorem keyStep_eq_ok_iff (key : List Char) (s : Segment) :
    keyStep key = .ok s ↔ key ≠ [] ∧ ']' ∉ key ∧ s = .key (String.ofList key) := by
  unfold keyStep
  by_cases hempty : key = []
  · simp [hempty]
  · by_cases hstray : ']' ∈ key
    · simp [hempty, hstray]
    · have hstep : Segment.key (String.ofList key) = s ↔ s = .key (String.ofList key) := eq_comm
      simp [hempty, hstray, hstep]

theorem readNatural_eq_some_iff_writesInner (inner : List Char) (i : Nat) :
    Text.readNatural Text.maxWord64 inner = some i ↔ WritesInner (.index i) inner := by
  rw [Text.readNatural_eq_some_iff]
  constructor
  · rintro ⟨sign, digits, hsign, hsome, hdigits, rfl, hbound, rfl⟩
    exact .index hsign hsome hdigits hbound
  · rintro ⟨⟩
    rename_i sign digits hsign hsome hdigits hbound
    exact ⟨sign, digits, hsign, hsome, hdigits, rfl, hbound, rfl⟩

theorem bracketStep_eq_ok_iff (inner : List Char) (s : Segment) :
    bracketStep inner = .ok s ↔ WritesInner s inner := by
  unfold bracketStep
  by_cases hstar : inner = ['*']
  · rw [if_pos hstar]
    constructor
    · rintro ⟨⟩
      exact hstar ▸ .each
    · intro h
      cases h with
      | each => rfl
      | index hsign hsome hdigits hbound =>
        -- A star is neither a sign nor a digit.
        rcases hsign with rfl | rfl
        · subst hstar
          exact absurd (hdigits '*' List.mem_cons_self) (by decide)
        · cases hstar
  · rw [if_neg hstar]
    constructor
    · intro h
      split at h
      · rename_i i hread
        cases h
        exact (readNatural_eq_some_iff_writesInner inner i).mp hread
      · cases h
    · intro h
      cases s with
      | key name => cases h
      | each =>
        cases h
        exact absurd rfl hstar
      | index i => rw [(readNatural_eq_some_iff_writesInner inner i).mpr h]

/-- The inside of a bracket does not close it. -/
theorem WritesInner.notMem {s : Segment} {inner : List Char} (h : WritesInner s inner) :
    ']' ∉ inner := by
  cases h with
  | each => decide
  | index hsign hsome hdigits hbound =>
    intro hmem
    rcases List.mem_append.mp hmem with hmem | hmem
    · rcases hsign with rfl | rfl
      · cases hmem
      · exact absurd hmem (by decide)
    · exact absurd (hdigits _ hmem) (by decide)

/-! ## What a reader has to find -/

/-- What a reader in some place has still to find for a path to be read. -/
def Expects : ReaderPlace → FieldPath → List Char → Prop
  | .start, p, cs => Writes p cs
  | .between, p, cs => WritesMore p cs
  | .inKey read, p, cs => ∃ name more s rest, cs = name ++ more ∧
      (∀ c ∈ name, c ≠ '.' ∧ c ≠ '[') ∧ keyStep (read.reverse ++ name) = .ok s ∧
      p = s :: rest ∧ WritesMore rest more
  | .inBracket read, p, cs => ∃ inner more s rest, cs = inner ++ ']' :: more ∧
      ']' ∉ inner ∧ bracketStep (read.reverse ++ inner) = .ok s ∧
      p = s :: rest ∧ WritesMore rest more

section

variable {p : FieldPath} {cs : List Char}

/-- Behind a step there is nothing, or a dot, or a bracket. -/
theorem WritesMore.head {c : Char} (h : WritesMore p (c :: cs)) : c = '.' ∨ c = '[' := by
  cases h with
  | key _ _ => exact .inl rfl
  | bracket _ _ => exact .inr rfl

theorem isKeyText_of_keyStep {name : List Char} {s : Segment} (hstep : keyStep name = .ok s)
    (h : ∀ c ∈ name, c ≠ '.' ∧ c ≠ '[') : IsKeyText name ∧ s = .key (String.ofList name) := by
  obtain ⟨hsome, hstray, rfl⟩ := (keyStep_eq_ok_iff name s).mp hstep
  exact ⟨⟨hsome, fun c hc => ⟨(h c hc).1, (h c hc).2, fun heq => hstray (heq ▸ hc)⟩⟩, rfl⟩

theorem IsKeyText.keyStep {name : List Char} (h : IsKeyText name) :
    keyStep name = .ok (.key (String.ofList name)) :=
  (keyStep_eq_ok_iff name _).mpr ⟨h.1, fun hmem => (h.2 _ hmem).2.2 rfl, rfl⟩

theorem expects_inBracket_iff :
    Expects (.inBracket []) p cs ↔ WritesMore p ('[' :: cs) := by
  constructor
  · rintro ⟨inner, more, s, rest, rfl, -, hstep, rfl, hrest⟩
    exact .bracket ((bracketStep_eq_ok_iff inner s).mp hstep) hrest
  · rintro (_ | _ | ⟨h, hrest⟩)
    exact ⟨_, _, _, _, rfl, h.notMem, (bracketStep_eq_ok_iff _ _).mpr h, rfl, hrest⟩

theorem expects_inBracket_iff_writes :
    Expects (.inBracket []) p cs ↔ Writes p ('[' :: cs) := by
  rw [expects_inBracket_iff]
  constructor
  · rintro (_ | _ | ⟨h, hrest⟩)
    exact .bracket h hrest
  · intro h
    generalize htext : '[' :: cs = text at h
    cases h with
    | root => cases htext
    | key hkey hrest =>
      obtain ⟨c, name, rfl⟩ := List.exists_cons_of_ne_nil hkey.1
      have hc : '[' = c := (List.cons.inj htext).1
      exact absurd hc.symm (hkey.2 c List.mem_cons_self).2.1
    | bracket h hrest => exact .bracket h hrest

theorem expects_inKey_iff : Expects (.inKey []) p cs ↔ WritesMore p ('.' :: cs) := by
  constructor
  · rintro ⟨name, more, s, rest, rfl, hmarks, hstep, rfl, hrest⟩
    obtain ⟨hkey, rfl⟩ := isKeyText_of_keyStep hstep hmarks
    exact .key hkey hrest
  · rintro (_ | ⟨h, hrest⟩ | _)
    exact ⟨_, _, _, _, rfl, fun c hc => ⟨(h.2 c hc).1, (h.2 c hc).2.1⟩, h.keyStep, rfl, hrest⟩

/-- A path that starts with neither mark starts with a key. -/
theorem expects_inKey_iff_writes {c : Char} (hdot : c ≠ '.') (hopen : c ≠ '[') :
    Expects (.inKey [c]) p cs ↔ Writes p (c :: cs) := by
  constructor
  · rintro ⟨name, more, s, rest, rfl, hmarks, hstep, rfl, hrest⟩
    obtain ⟨hkey, rfl⟩ := isKeyText_of_keyStep hstep (by
      intro d hd
      rcases List.mem_cons.mp hd with rfl | hd
      · exact ⟨hdot, hopen⟩
      · exact hmarks d hd)
    exact .key hkey hrest
  · intro h
    generalize htext : c :: cs = text at h
    cases h with
    | root => cases htext
    | key hkey hrest =>
      obtain ⟨d, name, rfl⟩ := List.exists_cons_of_ne_nil hkey.1
      obtain ⟨rfl, rfl⟩ := List.cons.inj htext
      refine ⟨name, _, _, _, rfl, ?_, hkey.keyStep, rfl, hrest⟩
      intro d hd
      have hmarks := hkey.2 d (List.mem_cons_of_mem c hd)
      exact ⟨hmarks.1, hmarks.2.1⟩
    | bracket h hrest => exact absurd (List.cons.inj htext).1 hopen

end

/-- What has been read of a key is the key when a step follows or nothing. -/
theorem expects_inKey_of_more {read cs : List Char} {p : FieldPath}
    (h : cs = [] ∨ ∃ c rest, cs = c :: rest ∧ (c = '.' ∨ c = '[')) :
    Expects (.inKey read) p cs ↔
      ∃ s rest, keyStep read.reverse = .ok s ∧ p = s :: rest ∧ WritesMore rest cs := by
  constructor
  · rintro ⟨name, more, s, rest, rfl, hmarks, hstep, rfl, hrest⟩
    cases name with
    | nil => exact ⟨s, rest, by simpa using hstep, rfl, hrest⟩
    | cons d name =>
      rcases h with h | ⟨c, tail, h, hmark⟩
      · cases h
      · obtain ⟨rfl, -⟩ := List.cons.inj h
        have hd := hmarks d List.mem_cons_self
        exact absurd hmark (not_or.mpr hd)
  · rintro ⟨s, rest, hstep, rfl, hrest⟩
    exact ⟨[], cs, s, rest, rfl, by simp, by simpa using hstep, rfl, hrest⟩

/-- Any other character goes into the key. -/
theorem expects_inKey_cons {read cs : List Char} {p : FieldPath} {c : Char} (hdot : c ≠ '.')
    (hopen : c ≠ '[') : Expects (.inKey read) p (c :: cs) ↔ Expects (.inKey (c :: read)) p cs := by
  constructor
  · rintro ⟨name, more, s, rest, htext, hmarks, hstep, rfl, hrest⟩
    cases name with
    | nil =>
      obtain rfl : c :: cs = more := htext
      exact absurd hrest.head (not_or.mpr ⟨hdot, hopen⟩)
    | cons d name =>
      obtain ⟨rfl, rfl⟩ := List.cons.inj htext
      exact ⟨name, more, s, rest, rfl, fun d hd => hmarks d (List.mem_cons_of_mem c hd),
        by simpa using hstep, rfl, hrest⟩
  · rintro ⟨name, more, s, rest, rfl, hmarks, hstep, rfl, hrest⟩
    refine ⟨c :: name, more, s, rest, rfl, ?_, by simpa using hstep, rfl, hrest⟩
    intro d hd
    rcases List.mem_cons.mp hd with rfl | hd
    · exact ⟨hdot, hopen⟩
    · exact hmarks d hd

theorem expects_inBracket_close {read cs : List Char} {p : FieldPath} :
    Expects (.inBracket read) p (']' :: cs) ↔
      ∃ s rest, bracketStep read.reverse = .ok s ∧ p = s :: rest ∧ WritesMore rest cs := by
  constructor
  · rintro ⟨inner, more, s, rest, htext, hinner, hstep, rfl, hrest⟩
    cases inner with
    | nil =>
      obtain rfl : cs = more := (List.cons.inj htext).2
      exact ⟨s, rest, by simpa using hstep, rfl, hrest⟩
    | cons d inner =>
      obtain rfl : ']' = d := (List.cons.inj htext).1
      exact absurd List.mem_cons_self hinner
  · rintro ⟨s, rest, hstep, rfl, hrest⟩
    exact ⟨[], cs, s, rest, rfl, by simp, by simpa using hstep, rfl, hrest⟩

theorem expects_inBracket_cons {read cs : List Char} {p : FieldPath} {c : Char} (h : c ≠ ']') :
    Expects (.inBracket read) p (c :: cs) ↔ Expects (.inBracket (c :: read)) p cs := by
  constructor
  · rintro ⟨inner, more, s, rest, htext, hinner, hstep, rfl, hrest⟩
    cases inner with
    | nil => exact absurd (List.cons.inj htext).1 h
    | cons d inner =>
      obtain ⟨rfl, rfl⟩ := List.cons.inj htext
      exact ⟨inner, more, s, rest, rfl, fun hmem => hinner (List.mem_cons_of_mem c hmem),
        by simpa using hstep, rfl, hrest⟩
  · rintro ⟨inner, more, s, rest, rfl, hinner, hstep, rfl, hrest⟩
    refine ⟨c :: inner, more, s, rest, rfl, ?_, by simpa using hstep, rfl, hrest⟩
    rw [List.mem_cons, not_or]
    exact ⟨Ne.symm h, hinner⟩

/-! ## The reader -/

/-- A step is read and then what follows it. -/
theorem step_then_eq_ok_iff {step : Except PathFault Segment}
    {more : Except PathFault (List Segment)} {p : FieldPath} :
    (match step with
      | .ok s => more.map (fun rest => s :: rest)
      | .error e => .error e) = Except.ok p ↔
      ∃ s rest, step = .ok s ∧ p = s :: rest ∧ more = .ok rest := by
  cases step with
  | error e =>
    constructor
    · intro h
      cases h
    · rintro ⟨s, rest, h, -⟩
      cases h
  | ok s =>
    dsimp only
    rw [map_eq_ok_iff]
    constructor
    · rintro ⟨rest, hmore, rfl⟩
      exact ⟨s, rest, rfl, rfl, hmore⟩
    · rintro ⟨_, rest, ⟨⟩, rfl, hmore⟩
      exact ⟨rest, hmore, rfl⟩

/-- A reader reads a path exactly if it finds what it has to find. -/
theorem steps_eq_ok_iff (place : ReaderPlace) (cs : List Char) (p : FieldPath) :
    steps place cs = .ok p ↔ Expects place p cs := by
  -- Over the text: each character leads the reader from one place to another.
  induction cs generalizing place p with
  | nil =>
    cases place with
    | start =>
      constructor
      · rintro ⟨⟩
        exact .root
      · intro h
        generalize htext : [] = text at h
        cases h with
        | root => rfl
        | key hkey hrest => exact absurd (List.append_eq_nil_iff.mp htext.symm).1 hkey.1
        | bracket h hrest => cases htext
    | between =>
      constructor
      · rintro ⟨⟩
        exact .nil
      · rintro ⟨⟩
        rfl
    | inKey read =>
      rw [expects_inKey_of_more (.inl rfl), steps, map_eq_ok_iff]
      constructor
      · rintro ⟨s, hstep, rfl⟩
        exact ⟨s, [], hstep, rfl, .nil⟩
      · rintro ⟨s, rest, hstep, rfl, hrest⟩
        cases hrest
        exact ⟨s, hstep, rfl⟩
    | inBracket read =>
      constructor
      · intro h
        cases h
      · rintro ⟨inner, more, s, rest, htext, -⟩
        simp at htext
  | cons c cs ih =>
    cases place with
    | start =>
      rw [steps]
      by_cases hopen : c = '['
      · rw [if_pos hopen, hopen, ih, expects_inBracket_iff_writes]
        exact Iff.rfl
      · by_cases hdot : c = '.'
        · rw [if_neg hopen, if_pos hdot, hdot]
          constructor
          · intro h
            cases h
          · intro h
            generalize htext : '.' :: cs = text at h
            cases h with
            | root => cases htext
            | key hkey hrest =>
              obtain ⟨d, name, rfl⟩ := List.exists_cons_of_ne_nil hkey.1
              have hd : '.' = d := (List.cons.inj htext).1
              exact absurd hd.symm (hkey.2 d List.mem_cons_self).1
            | bracket h hrest => cases htext
        · rw [if_neg hopen, if_neg hdot, ih, expects_inKey_iff_writes hdot hopen]
          exact Iff.rfl
    | between =>
      rw [steps]
      by_cases hopen : c = '['
      · rw [if_pos hopen, hopen, ih, expects_inBracket_iff]
        exact Iff.rfl
      · by_cases hdot : c = '.'
        · rw [if_neg hopen, if_pos hdot, hdot, ih, expects_inKey_iff]
          exact Iff.rfl
        · rw [if_neg hopen, if_neg hdot]
          constructor
          · intro h
            cases h
          · intro h
            exact absurd (WritesMore.head h) (not_or.mpr ⟨hdot, hopen⟩)
    | inKey read =>
      rw [steps]
      by_cases hopen : c = '['
      · rw [if_pos hopen, expects_inKey_of_more (.inr ⟨c, cs, rfl, .inr hopen⟩), hopen]
        refine step_then_eq_ok_iff.trans ?_
        simp only [ih, expects_inBracket_iff]
      · by_cases hdot : c = '.'
        · rw [if_neg hopen, if_pos hdot,
            expects_inKey_of_more (.inr ⟨c, cs, rfl, .inl hdot⟩), hdot]
          refine step_then_eq_ok_iff.trans ?_
          simp only [ih, expects_inKey_iff]
        · rw [if_neg hopen, if_neg hdot, ih, expects_inKey_cons hdot hopen]
    | inBracket read =>
      rw [steps]
      by_cases hclose : c = ']'
      · rw [if_pos hclose, hclose, expects_inBracket_close]
        refine step_then_eq_ok_iff.trans ?_
        simp only [ih, Expects]
      · rw [if_neg hclose, ih, expects_inBracket_cons hclose]

/-! ## Texts -/

theorem rootMarked_iff (text cs : List Char) : RootMarked text cs ↔ cs = withoutRootMark text := by
  constructor
  · rintro (h | h | _)
    · unfold withoutRootMark
      split
      · exact absurd rfl h
      · exact absurd rfl h
      · rfl
    · unfold withoutRootMark
      split
      · rename_i heq
        rw [(List.cons.inj heq).2] at h
        exact absurd rfl h
      · rename_i heq
        exact (List.cons.inj heq).2
      · rename_i heq
        exact absurd rfl (heq cs)
    · rfl
  · rintro rfl
    unfold withoutRootMark
    split
    · exact .dollarDot
    · rename_i rest hdot
      refine .dollar ?_
      intro h
      obtain ⟨tail, rfl⟩ := List.head?_eq_some_iff.mp h
      exact hdot tail rfl
    · rename_i hdollar
      refine .unmarked ?_
      intro h
      obtain ⟨tail, rfl⟩ := List.head?_eq_some_iff.mp h
      exact hdollar tail rfl

theorem parse_eq_ok_iff (text : String) (p : FieldPath) : parse text = .ok p ↔ Spells text p := by
  have hread : parse text = .ok p ↔
      steps .start (withoutRootMark (Text.trimChars text.toList)) = .ok p := by
    unfold parse
    split <;> simp_all
  rw [hread, steps_eq_ok_iff]
  constructor
  · intro h
    exact ⟨_, _, (Text.trims_iff _ _).mpr rfl, (rootMarked_iff _ _).mpr rfl, h⟩
  · rintro ⟨trimmed, cs, htrims, hmarked, hwrites⟩
    obtain rfl := (Text.trims_iff _ _).mp htrims
    obtain rfl := (rootMarked_iff _ _).mp hmarked
    exact hwrites

/-- What is written writes one path only. -/
theorem Writes.unique {p q : FieldPath} {cs : List Char} (hp : Writes p cs) (hq : Writes q cs) :
    p = q :=
  Except.ok.inj (((steps_eq_ok_iff .start cs p).mpr hp).symm.trans
    ((steps_eq_ok_iff .start cs q).mpr hq))

/-- Every step takes a character at least. -/
theorem WritesMore.length_le {p : FieldPath} {cs : List Char} (h : WritesMore p cs) :
    p.length ≤ cs.length := by
  induction h with
  | nil => exact Nat.le_refl 0
  | key hkey hrest ih =>
    simp only [List.length_cons, List.length_append]
    omega
  | bracket h hrest ih =>
    simp only [List.length_cons, List.length_append]
    omega

theorem Writes.length_le {p : FieldPath} {cs : List Char} (h : Writes p cs) :
    p.length ≤ cs.length := by
  cases h with
  | root => exact Nat.le_refl 0
  | key hkey hrest =>
    have hsome := List.length_pos_iff.mpr hkey.1
    have hmore := hrest.length_le
    simp only [List.length_cons, List.length_append]
    omega
  | bracket h hrest =>
    have hmore := hrest.length_le
    simp only [List.length_cons, List.length_append]
    omega

theorem Spells.length_le {text : String} {p : FieldPath} (h : Spells text p) :
    p.length ≤ text.toList.length := by
  obtain ⟨trimmed, cs, ⟨front, back, htext, -⟩, hmarked, hwrites⟩ := h
  have hcs : cs.length ≤ trimmed.length := by
    cases hmarked with
    | unmarked h => exact Nat.le_refl _
    | dollar h => exact Nat.le_succ _
    | dollarDot => exact (Nat.le_succ _).trans (Nat.le_succ _)
  have hsteps := hwrites.length_le
  rw [htext, List.length_append, List.length_append]
  omega

/-- The reader of paths follows the grammar. It reads a path from a text exactly if the text spells
it, and what is written between the marks and blanks at its ends writes no other path. Every text
gets an answer: a path of no more steps than the text has characters, or a fault of the text. -/
theorem reading_follows_the_grammar (text : String) :
    (∀ p, parse text = .ok p ↔ Spells text p) ∧
      (∀ cs p q, Writes p cs → Writes q cs → p = q) ∧
      ((∃ p, parse text = .ok p ∧ p.length ≤ text.toList.length) ∨
        ∃ fault, parse text = .error ⟨text, fault⟩) := by
  refine ⟨parse_eq_ok_iff text, fun cs p q => Writes.unique, ?_⟩
  cases hread : parse text with
  | ok p => exact .inl ⟨p, rfl, ((parse_eq_ok_iff text p).mp hread).length_le⟩
  | error e =>
    right
    unfold parse at hread
    split at hread
    · cases hread
    · exact ⟨_, by rw [← Except.error.inj hread]⟩

/-! The seventh room, its number written with a sign and a zero, and blanks around it. -/

theorem a_signed_index_is_read :
    Writes [.key (String.ofList ['r', 'o', 'o', 'm']), .index (Text.valueOf ['0', '7'])]
        "room[+07]".toList ∧
      Writes [.key "room", .index 7] "room[+07]".toList ∧
      [.key (String.ofList ['r', 'o', 'o', 'm']), .index (Text.valueOf ['0', '7'])] =
        [Segment.key "room", .index 7] ∧
      parse " $.room[+07] " = .ok [.key "room", .index 7] := by
  obtain ⟨hread, hunique, -⟩ := reading_follows_the_grammar " $.room[+07] "
  have hinner : WritesInner (.index (Text.valueOf ['0', '7'])) ['+', '0', '7'] :=
    @WritesInner.index ['+'] ['0', '7'] (.inr rfl) (by decide)
      (List.forall_mem_cons.mpr ⟨by decide, List.forall_mem_singleton.mpr (by decide)⟩) (by decide)
  have hwrites :
      Writes [.key (String.ofList ['r', 'o', 'o', 'm']), .index (Text.valueOf ['0', '7'])]
        "room[+07]".toList :=
    @Writes.key ['r', 'o', 'o', 'm'] _ _ ⟨by decide, by simp⟩ (.bracket hinner .nil)
  have hwrites' : Writes [.key "room", .index 7] "room[+07]".toList := hwrites
  have hblank : ∀ c ∈ [' '], Text.isBlank c = true := List.forall_mem_singleton.mpr (by decide)
  have htrims : Text.Trims " $.room[+07] ".toList "$.room[+07]".toList := by
    refine ⟨[' '], [' '], rfl, hblank, hblank, fun c hc => ?_, fun c hc => ?_⟩
    · obtain rfl : '$' = c := Option.some.inj hc
      decide
    · obtain rfl : ']' = c := Option.some.inj hc
      decide
  exact ⟨hwrites, hwrites', hunique _ _ _ hwrites hwrites',
    (hread _).mpr ⟨_, _, htrims, .dollarDot, hwrites'⟩⟩

end CauseLists.FieldPath
