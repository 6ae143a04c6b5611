-- What a pattern matches. An expression is read as a relation between the places of a text: from
-- here a match can run to there. The matcher follows many places at once, forgets the ways that led
-- to them and stops when no new place turns up; it finds just the places to which a match can run.
import CauseLists.Pattern.Expr

namespace CauseLists

/-! ## The meaning of an expression -/

/-- So many steps in a row lead from one place to another. -/
def Times {α : Type} (step : α → α → Prop) : Nat → α → α → Prop
  | 0, p, q => q = p
  | n + 1, p, r => ∃ q, step p q ∧ Times step n q r

namespace Expr

/-- A match of an expression can run from one place of a text to another. -/
def Matches : Expr → Position → Position → Prop
  | .empty, p, q => q = p
  | .set chars, p, q =>
    ∃ c rest, p.rest = c :: rest ∧ chars.contains c = true ∧ q = ⟨p.index + 1, some c, rest⟩
  | .assertion a, p, q => a.holds p = true ∧ q = p
  | .seq first second, p, r => ∃ q, first.Matches p q ∧ second.Matches q r
  | .alt left right, p, q => left.Matches p q ∨ right.Matches p q
  | .repeated body least most, p, q =>
    ∃ times, least ≤ times ∧ (∀ bound ∈ most, times ≤ max least bound) ∧
      Times body.Matches times p q

end Expr

/-! ## Places of one text -/

namespace Position

/-- A place of a text: what lies before it and what follows make up the text. -/
def Of (cs : List Char) (p : Position) : Prop :=
  ∃ front, cs = front ++ p.rest ∧ p.index = front.length ∧ p.before = front.getLast?

variable {cs : List Char} {p q : Position}

theorem of_first (text : String) : (first text).Of text.toList := ⟨[], rfl, rfl, rfl⟩

/-- Places of one text are told apart by how many characters lie before them. -/
theorem Of.eq_of_index (hp : p.Of cs) (hq : q.Of cs) (h : p.index = q.index) : p = q := by
  obtain ⟨front, hcs, hindex, hbefore⟩ := hp
  obtain ⟨front', hcs', hindex', hbefore'⟩ := hq
  obtain ⟨rfl, hrest⟩ := List.append_inj (hcs.symm.trans hcs') (by omega)
  cases p
  cases q
  simp_all

theorem Of.next {i : Nat} {b : Option Char} {c : Char} {rest : List Char}
    (h : Of cs ⟨i, b, c :: rest⟩) : Of cs ⟨i + 1, some c, rest⟩ := by
  obtain ⟨front, hcs, hindex, -⟩ := h
  refine ⟨front ++ [c], ?_, ?_, ?_⟩
  · simpa using hcs
  · rw [List.length_append, ← hindex]
    rfl
  · rw [List.getLast?_concat]

theorem Of.index_add_length (h : p.Of cs) : p.index + p.rest.length = cs.length := by
  obtain ⟨front, rfl, hindex, -⟩ := h
  rw [List.length_append, hindex]

/-- Only the first place of a text has nothing before it. -/
theorem Of.eq_first {text : String} (h : p.Of text.toList) (hbefore : p.before = none) :
    p = first text := by
  refine h.eq_of_index (of_first text) ?_
  obtain ⟨front, -, hindex, hlast⟩ := h
  rw [hbefore, eq_comm, List.getLast?_eq_none_iff] at hlast
  rw [hindex, hlast]
  rfl

theorem of_onward {front rest : List Char} (h : p ∈ onward front.length front.getLast? rest) :
    p.Of (front ++ rest) := by
  induction rest generalizing front with
  | nil =>
    obtain rfl := List.mem_singleton.mp h
    exact ⟨front, rfl, rfl, rfl⟩
  | cons c rest ih =>
    rcases List.mem_cons.mp h with rfl | h
    · exact ⟨front, rfl, rfl, rfl⟩
    · have hnext : p ∈ onward (front ++ [c]).length (front ++ [c]).getLast? rest := by
        rw [List.getLast?_concat, List.length_append]
        exact h
      simpa using ih hnext

theorem first_mem_onward (text : String) : first text ∈ onward 0 none text.toList := by
  unfold first
  cases text.toList with
  | nil => exact List.mem_singleton_self _
  | cons c rest => exact List.mem_cons_self

/-! ### Lists of places -/

theorem beq_iff_index (p q : Position) : (p == q) = true ↔ p.index = q.index :=
  beq_iff_eq (a := p.index) (b := q.index)

/-- Of places of one text none is lost when those that stand twice are taken out. -/
theorem mem_eraseDups {places : List Position} (h : ∀ p ∈ places, p.Of cs) :
    p ∈ places.eraseDups ↔ p ∈ places := by
  induction hlength : places.length using Nat.strongRecOn generalizing places with
  | _ n ih =>
    cases places with
    | nil => rfl
    | cons a rest =>
      have hrest : ∀ p ∈ rest.filter (fun b => !b == a), p.Of cs := fun p hp =>
        h p (List.mem_cons_of_mem a (List.mem_filter.mp hp).1)
      have hshorter : (rest.filter (fun b => !b == a)).length < n := by
        have hle := List.length_filter_le (fun b => !b == a) rest
        rw [List.length_cons] at hlength
        omega
      rw [List.eraseDups_cons, List.mem_cons, ih _ hshorter hrest rfl, List.mem_cons,
        List.mem_filter]
      constructor
      · rintro (rfl | ⟨hp, -⟩)
        · exact .inl rfl
        · exact .inr hp
      · rintro (rfl | hp)
        · exact .inl rfl
        · by_cases hsame : p.index = a.index
          · have hof := h p (List.mem_cons_of_mem a hp)
            exact .inl (hof.eq_of_index (h a List.mem_cons_self) hsame)
          · right
            refine ⟨hp, ?_⟩
            rw [Bool.not_eq_true', Bool.eq_false_iff, ne_eq, beq_iff_index]
            exact hsame

theorem contains_iff {places : List Position} (h : ∀ p ∈ places, p.Of cs) (hp : p.Of cs) :
    places.contains p = true ↔ p ∈ places := by
  rw [List.contains_iff_exists_mem_beq]
  constructor
  · rintro ⟨q, hq, hsame⟩
    exact hp.eq_of_index (h q hq) ((beq_iff_index p q).mp hsame) ▸ hq
  · intro hmem
    exact ⟨p, hmem, (beq_iff_index p p).mpr rfl⟩

end Position

/-! ## Steps -/

/-- The places that a step leads to, and the relation that says so. Steps stay in the text and never
go back. -/
structure Follows (cs : List Char) (step : Position → List Position)
    (relation : Position → Position → Prop) : Prop where
  mem : ∀ p, p.Of cs → ∀ q, q ∈ step p ↔ relation p q
  inText : ∀ p q, p.Of cs → relation p q → q.Of cs
  forward : ∀ p q, p.Of cs → relation p q → p.index ≤ q.index

theorem times_add {α : Type} {step : α → α → Prop} {m n : Nat} {p r : α} :
    Times step (m + n) p r ↔ ∃ q, Times step m p q ∧ Times step n q r := by
  induction m generalizing p with
  | zero => simp [Times]
  | succ m ih =>
    rw [Nat.succ_add]
    simp only [Times, ih]
    constructor
    · rintro ⟨s, hs, q, hq, hr⟩
      exact ⟨q, ⟨s, hs, hq⟩, hr⟩
    · rintro ⟨q, ⟨s, hs, hq⟩, hr⟩
      exact ⟨s, hs, q, hq, hr⟩

namespace Follows

variable {cs : List Char} {step : Position → List Position}
  {relation : Position → Position → Prop} {p q : Position}

theorem times_inText (h : Follows cs step relation) {n : Nat} (hp : p.Of cs)
    (hq : Times relation n p q) : q.Of cs := by
  induction n generalizing p with
  | zero =>
    obtain rfl : q = p := hq
    exact hp
  | succ n ih =>
    obtain ⟨s, hs, hq⟩ := hq
    exact ih (h.inText p s hp hs) hq

theorem times_forward (h : Follows cs step relation) {n : Nat} (hp : p.Of cs)
    (hq : Times relation n p q) : p.index ≤ q.index := by
  induction n generalizing p with
  | zero =>
    obtain rfl : q = p := hq
    exact Nat.le_refl _
  | succ n ih =>
    obtain ⟨s, hs, hq⟩ := hq
    exact Nat.le_trans (h.forward p s hp hs) (ih (h.inText p s hp hs) hq)

/-- A step that does not go forward can be left out, so no more steps are needed than there are
characters between two places. -/
theorem times_shortened (h : Follows cs step relation) {n : Nat} (hp : p.Of cs)
    (hq : Times relation n p q) : ∃ m, m ≤ q.index - p.index ∧ Times relation m p q := by
  induction n generalizing p with
  | zero => exact ⟨0, Nat.zero_le _, hq⟩
  | succ n ih =>
    obtain ⟨s, hs, hq⟩ := hq
    have hs' := h.inText p s hp hs
    obtain ⟨m, hm, htimes⟩ := ih hs' hq
    by_cases hstays : p.index = s.index
    · obtain rfl := hp.eq_of_index hs' hstays
      exact ⟨m, hm, htimes⟩
    · have hps := h.forward p s hp hs
      have hsq := h.times_forward hs' hq
      exact ⟨m + 1, by omega, s, hs, htimes⟩

theorem mem_flatMap (h : Follows cs step relation) {places : List Position}
    (hplaces : ∀ p ∈ places, p.Of cs) :
    (∀ q ∈ places.flatMap step, q.Of cs) ∧
      ∀ q, q ∈ (places.flatMap step).eraseDups ↔ ∃ p ∈ places, relation p q := by
  have hmem : ∀ q, q ∈ places.flatMap step ↔ ∃ p ∈ places, relation p q := by
    intro q
    rw [List.mem_flatMap]
    exact exists_congr (fun p => and_congr_right (fun hp => h.mem p (hplaces p hp) q))
  have hinText : ∀ q ∈ places.flatMap step, q.Of cs := by
    intro q hq
    obtain ⟨p, hp, hstep⟩ := (hmem q).mp hq
    exact h.inText p q (hplaces p hp) hstep
  exact ⟨hinText, fun q => (Position.mem_eraseDups hinText).trans (hmem q)⟩

theorem mem_stepped (h : Follows cs step relation) (times : Nat) {places : List Position}
    (hplaces : ∀ p ∈ places, p.Of cs) :
    q ∈ Expr.stepped step times places ↔ ∃ p ∈ places, Times relation times p q := by
  induction times generalizing places with
  | zero => simp [Expr.stepped, Times]
  | succ times ih =>
    rw [Expr.stepped]
    split
    · rename_i hempty
      simp [List.isEmpty_iff.mp hempty]
    · obtain ⟨hinText, hmem⟩ := h.mem_flatMap hplaces
      have hnext : ∀ p ∈ (places.flatMap step).eraseDups, p.Of cs := fun p hp =>
        hinText p ((Position.mem_eraseDups hinText).mp hp)
      rw [ih hnext]
      simp only [hmem, Times]
      constructor
      · rintro ⟨s, ⟨p, hp, hs⟩, hq⟩
        exact ⟨p, hp, s, hs, hq⟩
      · rintro ⟨p, hp, s, hs, hq⟩
        exact ⟨s, ⟨p, hp, hs⟩, hq⟩

/-- A way that starts at a place seen before stays at such places or leaves them for a new one. -/
theorem stays_or_leaves {seen next : List Position}
    (hnext : ∀ p ∈ seen, ∀ q, relation p q → q ∈ seen ∨ q ∈ next) {n : Nat} (hp : p ∈ seen)
    (hq : Times relation n p q) :
    q ∈ seen ∨ ∃ s ∈ next, ∃ m, m < n ∧ Times relation m s q := by
  induction n generalizing p with
  | zero =>
    obtain rfl : q = p := hq
    exact .inl hp
  | succ n ih =>
    obtain ⟨s, hs, hq⟩ := hq
    rcases hnext p hp s hs with hseen | hnew
    · rcases ih hseen hq with hq | ⟨t, ht, m, hm, hq⟩
      · exact .inl hq
      · exact .inr ⟨t, ht, m, by omega, hq⟩
    · exact .inr ⟨s, hnew, n, by omega, hq⟩

/-- The search finds what it has seen and what so many steps lead to. Of the places it has seen,
only the fresh ones can have a step to a new place. -/
theorem mem_reached (h : Follows cs step relation) (rounds : Nat) {fresh seen : List Position}
    (hseen : ∀ p ∈ seen, p.Of cs) (hfresh : ∀ p ∈ fresh, p ∈ seen)
    (hold : ∀ p ∈ seen, p ∉ fresh → ∀ q, relation p q → q ∈ seen) :
    q ∈ Expr.reached step rounds fresh seen ↔
      q ∈ seen ∨ ∃ p ∈ fresh, ∃ n, n ≤ rounds ∧ Times relation n p q := by
  induction rounds generalizing fresh seen with
  | zero =>
    rw [Expr.reached]
    refine ⟨.inl, ?_⟩
    rintro (hq | ⟨p, hp, n, hn, hq⟩)
    · exact hq
    · obtain rfl := Nat.le_zero.mp hn
      obtain rfl : q = p := hq
      exact hfresh q hp
  | succ rounds ih =>
    obtain ⟨hinText, hmem⟩ := h.mem_flatMap (fun p hp => hseen p (hfresh p hp))
    rw [Expr.reached]
    -- The places that are new in this round.
    generalize hnew : ((fresh.flatMap step).eraseDups).filter (fun p => !seen.contains p) = next
    have hnext : ∀ q, q ∈ next ↔ (∃ p ∈ fresh, relation p q) ∧ q ∉ seen := by
      intro q
      rw [← hnew, List.mem_filter, hmem, Bool.not_eq_true']
      refine and_congr_right ?_
      rintro ⟨p, hp, hstep⟩
      have hq := h.inText p q (hseen p (hfresh p hp)) hstep
      rw [Bool.eq_false_iff, ne_eq, Position.contains_iff hseen hq]
    have hnextText : ∀ p ∈ next, p.Of cs := by
      intro p hp
      obtain ⟨⟨s, hs, hstep⟩, -⟩ := (hnext p).mp hp
      exact h.inText s p (hseen s (hfresh s hs)) hstep
    have hleaves : ∀ p ∈ seen, ∀ q, relation p q → q ∈ seen ∨ q ∈ next := by
      intro p hp q hstep
      by_cases hq : q ∈ seen
      · exact .inl hq
      · by_cases hp' : p ∈ fresh
        · exact .inr ((hnext q).mpr ⟨⟨p, hp', hstep⟩, hq⟩)
        · exact absurd (hold p hp hp' q hstep) hq
    split
    · rename_i hempty
      refine ⟨.inl, ?_⟩
      rintro (hq | ⟨p, hp, n, -, hq⟩)
      · exact hq
      · rcases stays_or_leaves hleaves (hfresh p hp) hq with hq | ⟨s, hs, -⟩
        · exact hq
        · rw [List.isEmpty_iff.mp hempty] at hs
          cases hs
    · have hall : ∀ p ∈ seen ++ next, p.Of cs := fun p hp =>
        (List.mem_append.mp hp).elim (hseen p) (hnextText p)
      have hrest : ∀ p ∈ seen ++ next, p ∉ next → ∀ q, relation p q → q ∈ seen ++ next := by
        intro p hp hp' q hstep
        have hseen' := (List.mem_append.mp hp).resolve_right hp'
        exact List.mem_append.mpr (hleaves p hseen' q hstep)
      rw [ih hall (fun p hp => List.mem_append_right seen hp) hrest, List.mem_append]
      constructor
      · rintro ((hq | hq) | ⟨p, hp, n, hn, hq⟩)
        · exact .inl hq
        · obtain ⟨⟨p, hp, hstep⟩, -⟩ := (hnext q).mp hq
          exact .inr ⟨p, hp, 1, by omega, q, hstep, rfl⟩
        · obtain ⟨⟨s, hs, hstep⟩, -⟩ := (hnext p).mp hp
          exact .inr ⟨s, hs, n + 1, by omega, p, hstep, hq⟩
      · rintro (hq | ⟨p, hp, n, hn, hq⟩)
        · exact .inl (.inl hq)
        · rcases stays_or_leaves hleaves (hfresh p hp) hq with hq | ⟨s, hs, m, hm, hq⟩
          · exact .inl (.inl hq)
          · exact .inr ⟨s, hs, m, by omega, hq⟩

end Follows

/-! ## The matcher -/

namespace Expr

variable {cs : List Char} {p q : Position}

/-- A repetition, once the steps of its body are known. -/
theorem mem_ends_repeated {body : Expr} (h : Follows cs body.ends body.Matches) (least : Nat)
    (most : Option Nat) (hp : p.Of cs) :
    q ∈ (repeated body least most).ends p ↔ (repeated body least most).Matches p q := by
  have hplaces : ∀ s ∈ [p], s.Of cs := by simpa using hp
  have hstarted : ∀ s, s ∈ stepped body.ends least [p] ↔ Times body.Matches least p s := by
    intro s
    rw [h.mem_stepped least hplaces]
    simp
  have hinText : ∀ s ∈ stepped body.ends least [p], s.Of cs := fun s hs =>
    h.times_inText hp ((hstarted s).mp hs)
  have hreached : ∀ rounds, q ∈ reached body.ends rounds (stepped body.ends least [p])
      (stepped body.ends least [p]) ↔ ∃ n, n ≤ rounds ∧ Times body.Matches (least + n) p q := by
    intro rounds
    rw [h.mem_reached rounds hinText (fun s hs => hs) (fun s hs hs' => absurd hs hs')]
    simp only [hstarted, times_add]
    constructor
    · rintro (hq | ⟨s, hs, n, hn, hq⟩)
      · exact ⟨0, Nat.zero_le _, q, hq, rfl⟩
      · exact ⟨n, hn, s, hs, hq⟩
    · rintro ⟨n, hn, s, hs, hq⟩
      exact .inr ⟨s, hs, n, hn, hq⟩
  cases most with
  | some bound =>
    refine (hreached (bound - least)).trans ?_
    simp only [Matches, Option.mem_def, Option.some.injEq, forall_eq']
    constructor
    · rintro ⟨n, hn, hq⟩
      exact ⟨least + n, by omega, by omega, hq⟩
    · rintro ⟨times, hleast, hbound, hq⟩
      obtain ⟨n, rfl⟩ := Nat.exists_eq_add_of_le hleast
      exact ⟨n, by omega, hq⟩
  | none =>
    refine (hreached (p.rest.length + 1)).trans ?_
    constructor
    · rintro ⟨n, -, hq⟩
      exact ⟨least + n, by omega, by simp, hq⟩
    · rintro ⟨times, hleast, -, hq⟩
      obtain ⟨n, rfl⟩ := Nat.exists_eq_add_of_le hleast
      obtain ⟨s, hs, hq⟩ := times_add.mp hq
      have hs' := h.times_inText hp hs
      obtain ⟨m, hm, hq'⟩ := h.times_shortened hs' hq
      have hforward := h.times_forward hp hs
      have hlast := (h.times_inText hs' hq).index_add_length
      have hfirst := hp.index_add_length
      exact ⟨m, by omega, times_add.mpr ⟨s, hs, hq'⟩⟩

theorem follows (cs : List Char) (e : Expr) : Follows cs e.ends e.Matches := by
  induction e with
  | empty =>
    refine ⟨fun p _ q => List.mem_singleton, ?_, ?_⟩
    · rintro p q hp rfl
      exact hp
    · rintro p q - rfl
      exact Nat.le_refl _
  | set chars =>
    refine ⟨?_, ?_, ?_⟩
    · intro p _ q
      rw [ends, Matches]
      split
      · rename_i hrest
        simp [hrest]
      · rename_i c rest hrest
        simp only [hrest, List.cons.injEq]
        by_cases hc : chars.contains c = true
        · rw [if_pos hc, List.mem_singleton]
          constructor
          · rintro rfl
            exact ⟨c, rest, ⟨rfl, rfl⟩, hc, rfl⟩
          · rintro ⟨_, _, ⟨rfl, rfl⟩, -, rfl⟩
            rfl
        · rw [if_neg hc]
          constructor
          · intro h
            cases h
          · rintro ⟨_, _, ⟨rfl, rfl⟩, hc', -⟩
            exact absurd hc' hc
    · rintro p q hp ⟨c, rest, hrest, -, rfl⟩
      cases p
      subst hrest
      exact hp.next
    · rintro p q - ⟨c, rest, -, -, rfl⟩
      exact Nat.le_succ _
  | assertion a =>
    refine ⟨?_, ?_, ?_⟩
    · intro p _ q
      rw [ends, Matches]
      by_cases ha : a.holds p = true <;> simp [ha]
    · rintro p q hp ⟨-, rfl⟩
      exact hp
    · rintro p q - ⟨-, rfl⟩
      exact Nat.le_refl _
  | seq first second ih₁ ih₂ =>
    refine ⟨?_, ?_, ?_⟩
    · intro p hp r
      have hplaces : ∀ q ∈ first.ends p, q.Of cs := fun q hq =>
        ih₁.inText p q hp ((ih₁.mem p hp q).mp hq)
      rw [ends, (ih₂.mem_flatMap hplaces).2, Matches]
      exact exists_congr (fun q => and_congr_left' (ih₁.mem p hp q))
    · rintro p r hp ⟨q, hq, hr⟩
      exact ih₂.inText q r (ih₁.inText p q hp hq) hr
    · rintro p r hp ⟨q, hq, hr⟩
      exact Nat.le_trans (ih₁.forward p q hp hq)
        (ih₂.forward q r (ih₁.inText p q hp hq) hr)
  | alt left right ih₁ ih₂ =>
    refine ⟨?_, ?_, ?_⟩
    · intro p hp q
      have hmem : ∀ q, q ∈ left.ends p ++ right.ends p ↔ left.Matches p q ∨ right.Matches p q := by
        intro q
        rw [List.mem_append, ih₁.mem p hp, ih₂.mem p hp]
      have hplaces : ∀ q ∈ left.ends p ++ right.ends p, q.Of cs := fun q hq =>
        ((hmem q).mp hq).elim (ih₁.inText p q hp) (ih₂.inText p q hp)
      rw [ends, Position.mem_eraseDups hplaces, hmem, Matches]
    · rintro p q hp (hq | hq)
      · exact ih₁.inText p q hp hq
      · exact ih₂.inText p q hp hq
    · rintro p q hp (hq | hq)
      · exact ih₁.forward p q hp hq
      · exact ih₂.forward p q hp hq
  | repeated body least most ih =>
    refine ⟨fun p hp q => mem_ends_repeated ih least most hp, ?_, ?_⟩
    · rintro p q hp ⟨times, -, -, hq⟩
      exact ih.times_inText hp hq
    · rintro p q hp ⟨times, -, -, hq⟩
      exact ih.times_forward hp hq

/-- The matcher looks for a match from any place of a text. -/
theorem occursIn_iff (e : Expr) (text : String) :
    e.occursIn text = true ↔ ∃ p ∈ Position.onward 0 none text.toList, ∃ q, e.Matches p q := by
  rw [occursIn, List.any_eq_true]
  refine exists_congr (fun p => and_congr_right (fun hp => ?_))
  have hof : p.Of text.toList := @Position.of_onward p [] text.toList hp
  rw [Bool.not_eq_true', List.isEmpty_eq_false_iff_exists_mem]
  exact exists_congr (fun q => (e.follows _).mem p hof q)

end Expr

end CauseLists
