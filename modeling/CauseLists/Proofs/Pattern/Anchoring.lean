-- Patterns between the ends of a value. For whole values a pattern is not read by itself but in a
-- group of a longer text. The group ends where the pattern ends, unless the pattern closes a group
-- that it has not opened, or ends in a comment that hides the end of the group.
import CauseLists.Bundled.Libraries
import CauseLists.Format
import CauseLists.Proofs.Pattern.Letters

namespace CauseLists.Pattern

theorem checkText_pattern_iff (p : Pattern) (value : String) :
    (Format.pattern p).checkText value = .ok () ↔ p.accepts value = true := by
  show (if p.accepts value then _ else _) = _ ↔ _
  cases p.accepts value <;> simp

variable {l : RegexLibrary} {s : RegexSyntax} {source : String} {p : Pattern}

theorem compile_of_ok (h : compile l source = .ok p) :
    l.compile (anchored source) = .ok p.accepts := by
  unfold compile at h
  cases htest : l.compile (anchored source) with
  | error reason =>
    rw [htest] at h
    cases h
  | ok test =>
    rw [htest] at h
    obtain rfl := Except.ok.inj h
    rfl

theorem exists_compile_iff :
    (∃ p, compile l source = .ok p) ↔ ∃ test, l.compile (anchored source) = .ok test := by
  constructor
  · rintro ⟨p, hp⟩
    exact ⟨p.accepts, compile_of_ok hp⟩
  · rintro ⟨test, htest⟩
    exact ⟨⟨source, test⟩, by rw [compile, htest]; rfl⟩

/-- A text in front of a closing parenthesis that ends in front of the wrapper's end or earlier. -/
theorem closes_first_or_last {x rest : String} (h : source ++ ")$" = x ++ ")" ++ rest) :
    x = source ∨ ∃ more, source = x ++ ")" ++ more := by
  have hlist : source.toList ++ [')', '$'] = x.toList ++ ')' :: rest.toList := by
    simpa using congrArg String.toList h
  rcases List.append_eq_append_iff.mp hlist with ⟨more, hx, hmore⟩ | ⟨more, hsource, hmore⟩
  · -- What is read goes on behind the pattern: it can only be the end of the wrapper.
    match more with
    | [] => exact .inl (String.toList_inj.mp (by simpa using hx))
    | [c] => simp at hmore
    | c :: d :: more => simp at hmore
  · match more with
    | [] => exact .inl (String.toList_inj.mp (by simpa using hsource.symm))
    | c :: more =>
      obtain ⟨rfl, -⟩ := List.cons.inj hmore
      refine .inr ⟨String.ofList more, String.toList_inj.mp ?_⟩
      simpa using hsource

section

variable (h : l.Speaks s)
include h

/-- A pattern that is an expression, in its wrapper. -/
theorem expression_anchored {m : Matching} (hm : s.Expression source m)
    (hends : ¬s.EndsInComment source) :
    s.Expression (anchored source)
      (fun value i j => (i = 0 ∧ m value i j) ∧ j = value.length) := by
  have hrow := h.dollar (h.caret (h.group hm hends))
  have htext : "^" ++ ("(?:" ++ source ++ ")") ++ "$" = anchored source := by
    simp [anchored, ← String.toList_inj]
  rw [htext] at hrow
  exact h.expression hrow

/-- Where a text compiles between the ends of a value, its wrapper's group is closed behind some
expression in front of it. -/
theorem exists_closed (hvalid : s.Valid (anchored source)) :
    ∃ x rest, source ++ ")$" = x ++ ")" ++ rest ∧ s.Valid x ∧ ¬s.EndsInComment x := by
  have htext : anchored source = "^" ++ "" ++ "(?:" ++ (source ++ ")$") := by
    simp [anchored, ← String.toList_inj]
  rw [htext] at hvalid
  exact h.closed (h.caret h.empty) hvalid

/-- A pattern that compiles is an expression that does not hide the end of its group, or it closes
the group before its end. -/
theorem valid_or_closes (hp : compile l source = .ok p) :
    s.Valid source ∧ ¬s.EndsInComment source ∨
      ∃ x rest, source = x ++ ")" ++ rest ∧ s.Valid x ∧ ¬s.EndsInComment x := by
  obtain ⟨hvalid, -⟩ := (h.compiles _).mp ⟨_, compile_of_ok hp⟩
  obtain ⟨x, rest, hclosed, hx, hends⟩ := exists_closed h hvalid
  rcases closes_first_or_last hclosed with rfl | ⟨more, hsource⟩
  · exact .inl ⟨hx, hends⟩
  · exact .inr ⟨x, more, hsource, hx, hends⟩

/-- The values that a pattern accepts are those that one of its matches spans. -/
theorem spans_of_compile (hp : compile l source = .ok p) {m : Matching}
    (hm : s.Expression source m) (hends : ¬s.EndsInComment source) (value : String) :
    (Format.pattern p).checkText value = .ok () ↔ m value 0 value.length := by
  rw [checkText_pattern_iff, h.finds (compile_of_ok hp) (expression_anchored h hm hends)]
  constructor
  · rintro ⟨i, j, ⟨rfl, hmatch⟩, rfl⟩
    exact hmatch
  · intro hmatch
    exact ⟨0, value.length, ⟨rfl, hmatch⟩, rfl⟩

/-- Two expressions with the wrapper's group closed and opened again between them. -/
theorem accepts_either_end {x y : String} {m n : Matching} (hx : s.Expression x m)
    (hy : s.Expression y n) (hendsx : ¬s.EndsInComment x) (hendsy : ¬s.EndsInComment y)
    (hp : compile l (x ++ ")|(?:" ++ y) = .ok p) (value : String) :
    (Format.pattern p).checkText value = .ok () ↔
      (∃ j, m value 0 j) ∨ ∃ i, n value i value.length := by
  have htext : anchored (x ++ ")|(?:" ++ y) =
      "^" ++ ("(?:" ++ x ++ ")") ++ "|" ++ ("(?:" ++ y ++ ")" ++ "$") := by
    simp [anchored, ← String.toList_inj]
  have htest := compile_of_ok hp
  rw [htext] at htest
  obtain ⟨hvalid, -⟩ := (h.compiles _).mp ⟨_, htest⟩
  have hbar := h.bar (h.caret (h.group hx hendsx)) (h.dollar (h.group hy hendsy)) hvalid
  rw [checkText_pattern_iff, h.finds htest hbar]
  constructor
  · rintro ⟨i, j, ⟨rfl, hmatch⟩ | ⟨hmatch, rfl⟩⟩
    · exact .inl ⟨j, hmatch⟩
    · exact .inr ⟨i, hmatch⟩
  · rintro (⟨j, hmatch⟩ | ⟨i, hmatch⟩)
    · exact ⟨0, j, .inl ⟨rfl, hmatch⟩⟩
    · exact ⟨i, value.length, .inr ⟨hmatch, rfl⟩⟩

/-- What compiles is an expression by itself and matches whole values, unless it closes the group
of its wrapper; then it is none by itself. An expression compiles unless it hides the end of the
group in a comment, or the limits leave no room for the wrapper. And a pattern that closes the group
between two expressions and opens it again accepts what begins with the one or ends with the
other. -/
theorem compiled_patterns_match_whole_values (source : String) :
    (∀ p, compile l source = .ok p →
      (s.Valid source ∧ ∀ m, s.Expression source m → ∀ value,
        (Format.pattern p).checkText value = .ok () ↔ m value 0 value.length) ∨
      (¬s.Valid source ∧
        ∃ x rest, source = x ++ ")" ++ rest ∧ s.Valid x ∧ ¬s.EndsInComment x)) ∧
    (s.Valid source →
      ((∃ p, compile l source = .ok p) ↔ ¬s.EndsInComment source ∧ s.Fits (anchored source))) ∧
    ∀ p x y m n, source = x ++ ")|(?:" ++ y → s.Expression x m → s.Expression y n →
      ¬s.EndsInComment x → ¬s.EndsInComment y → compile l source = .ok p →
      ¬s.Valid source ∧ ∀ value, (Format.pattern p).checkText value = .ok () ↔
        (∃ j, m value 0 j) ∨ ∃ i, n value i value.length := by
  refine ⟨?_, ?_, ?_⟩
  · intro p hp
    rcases valid_or_closes h hp with ⟨hvalid, hends⟩ | ⟨x, rest, rfl, hx, hends⟩
    · exact .inl ⟨hvalid, fun m hm => spans_of_compile h hp hm hends⟩
    · exact .inr ⟨h.unopened rest hx hends, x, rest, rfl, hx, hends⟩
  · intro hvalid
    rw [exists_compile_iff, h.compiles]
    constructor
    · rintro ⟨hanchored, hfits⟩
      obtain ⟨p, hp⟩ := exists_compile_iff.mpr ((h.compiles _).mpr ⟨hanchored, hfits⟩)
      rcases valid_or_closes h hp with ⟨-, hends⟩ | ⟨x, rest, rfl, hx, hends⟩
      · exact ⟨hends, hfits⟩
      · exact absurd hvalid (h.unopened rest hx hends)
    · rintro ⟨hends, hfits⟩
      obtain ⟨m, hm⟩ := hvalid
      exact ⟨⟨_, expression_anchored h hm hends⟩, hfits⟩
  · rintro p x y m n rfl hx hy hendsx hendsy hp
    have htext : x ++ ")|(?:" ++ y = x ++ ")" ++ ("|(?:" ++ y) := by
      simp [← String.toList_inj]
    refine ⟨?_, accepts_either_end h hx hy hendsx hendsy hp⟩
    rw [htext]
    exact h.unopened _ ⟨m, hx⟩ hendsx

end

open Letters (library language)

/-- A choice between two letters compiles, and what it accepts are whole values. Two letters with
the wrapper's group closed and opened again between them compile as well, though they are no
expression, and what is accepted need not end with the first of them. -/
theorem a_choice_is_matched_as_a_whole : library.Speaks language ∧
    (∃ p, compile library "A|B" = .ok p ∧ ∀ m, language.Expression "A|B" m →
      ∀ value, (Format.pattern p).checkText value = .ok () ↔ m value 0 value.length) ∧
    ¬language.Valid "a)|(?:b" ∧ ∃ p, compile library "a)|(?:b" = .ok p ∧
      (Format.pattern p).checkText "ax" = .ok () := by
  have hchoice : language.Valid "A|B" := Letters.valid_iff.mpr ⟨_, rfl⟩
  obtain ⟨m, hm⟩ : language.Valid "a" := Letters.valid_iff.mpr ⟨_, rfl⟩
  obtain ⟨n, hn⟩ : language.Valid "b" := Letters.valid_iff.mpr ⟨_, rfl⟩
  obtain ⟨hcompiled, hcompiles, -⟩ := compiled_patterns_match_whole_values Letters.speaks "A|B"
  obtain ⟨-, -, hopened⟩ := compiled_patterns_match_whole_values Letters.speaks "a)|(?:b"
  obtain ⟨p, hp⟩ := (hcompiles hchoice).mpr ⟨id, trivial⟩
  obtain ⟨q, hq, haccepts⟩ : ∃ q, compile library "a)|(?:b" = .ok q ∧ q.accepts "ax" = true :=
    ⟨_, rfl, by decide⟩
  obtain ⟨hinvalid, -⟩ := hopened q "a" "b" m n rfl hm hn id id hq
  refine ⟨Letters.speaks, ⟨p, hp, ?_⟩, hinvalid, q, hq, (checkText_pattern_iff q "ax").mpr haccepts⟩
  rcases hcompiled p hp with ⟨-, hspans⟩ | ⟨hno, -⟩
  · exact hspans
  · exact absurd hchoice hno

-- The program's own library takes such a pattern too, and refuses an expression that hides the end
-- of its wrapper's group in a comment.
example : (compile Bundled.regex "a)|(?:b").toOption.map (fun p => p.accepts "ax") = some true := by
  decide

example : (Bundled.regex.compile "(?x)a#").isOk ∧ ¬(compile Bundled.regex "(?x)a#").isOk := by
  decide

end CauseLists.Pattern
