-- The language of an expression. An expression without tests on places matches the same texts from
-- wherever it starts, so what it matches is a language, and the operators on expressions are those
-- on languages.
import CauseLists.Proofs.Pattern.Matching
import Mathlib.Computability.Language

/-- Languages over characters. They have a name of their own, and outside the namespace, because a
`Language` in there is one that lists are published in. -/
abbrev CharLanguage := Language Char

namespace CauseLists

/-! ## Texts between places -/

namespace Position

/-- A text leads from one place to another. -/
def Leads : List Char → Position → Position → Prop
  | [], p, q => q = p
  | c :: cs, p, q => ∃ rest, p.rest = c :: rest ∧ Leads cs ⟨p.index + 1, some c, rest⟩ q

theorem leads_append {cs ds : List Char} {p r : Position} :
    Leads (cs ++ ds) p r ↔ ∃ q, Leads cs p q ∧ Leads ds q r := by
  induction cs generalizing p with
  | nil => simp [Leads]
  | cons c cs ih =>
    simp only [List.cons_append, Leads, ih]
    constructor
    · rintro ⟨rest, hrest, q, hq, hr⟩
      exact ⟨q, ⟨rest, hrest, hq⟩, hr⟩
    · rintro ⟨q, ⟨rest, hrest, hq⟩, hr⟩
      exact ⟨rest, hrest, q, hq, hr⟩

theorem Leads.rest_eq {cs : List Char} {p q : Position} (h : Leads cs p q) :
    p.rest = cs ++ q.rest := by
  induction cs generalizing p with
  | nil =>
    obtain rfl : q = p := h
    rfl
  | cons c cs ih =>
    obtain ⟨rest, hrest, hq⟩ := h
    rw [hrest, List.cons_append, ← ih hq]

theorem exists_leads {cs rest : List Char} {p : Position} (h : p.rest = cs ++ rest) :
    ∃ q, Leads cs p q ∧ q.rest = rest := by
  induction cs generalizing p with
  | nil => exact ⟨p, rfl, h⟩
  | cons c cs ih =>
    obtain ⟨q, hq, hrest⟩ := @ih ⟨p.index + 1, some c, cs ++ rest⟩ rfl
    exact ⟨q, ⟨_, h, hq⟩, hrest⟩

/-- A text of two languages in a row leads over a place between them. -/
theorem exists_leads_mul {l m : CharLanguage} {p r : Position} :
    (∃ cs ∈ l * m, Leads cs p r) ↔
      ∃ q, (∃ cs ∈ l, Leads cs p q) ∧ ∃ ds ∈ m, Leads ds q r := by
  constructor
  · rintro ⟨_, ⟨cs, hcs, ds, hds, rfl⟩, hr⟩
    obtain ⟨q, hq, hr⟩ := leads_append.mp hr
    exact ⟨q, ⟨cs, hcs, hq⟩, ds, hds, hr⟩
  · rintro ⟨q, ⟨cs, hcs, hq⟩, ds, hds, hr⟩
    exact ⟨cs ++ ds, ⟨cs, hcs, ds, hds, rfl⟩, leads_append.mpr ⟨q, hq, hr⟩⟩

end Position

/-! ## Sets of characters -/

namespace CharSet

theorem contains_between_iff {low high c : Char} :
    (between low high).contains c = true ↔ low ≤ c ∧ c ≤ high := by
  simp only [between, contains, Bool.and_eq_true, decide_eq_true_eq]
  exact Iff.rfl

theorem contains_single_iff {d c : Char} : (single d).contains c = true ↔ c = d := by
  have hsingle : single d = between d d := rfl
  rw [hsingle, contains_between_iff]
  constructor
  · rintro ⟨hdc, hcd⟩
    exact Char.le_antisymm hcd hdc
  · rintro rfl
    exact ⟨Char.le_refl c, Char.le_refl c⟩

theorem contains_foldl_union {first : CharSet} {sets : List CharSet} {c : Char} :
    (sets.foldl .union first).contains c = true ↔
      first.contains c = true ∨ ∃ s ∈ sets, s.contains c = true := by
  induction sets generalizing first with
  | nil => simp
  | cons s sets ih => simp [ih, contains, or_assoc]

theorem contains_unions_iff {sets : List CharSet} {c : Char} :
    (unions sets).contains c = true ↔ ∃ s ∈ sets, s.contains c = true := by
  have hnone : none.contains c = false := by
    simp only [none, contains, Bool.and_eq_false_iff, decide_eq_false_iff_not]
    omega
  unfold unions
  rw [contains_foldl_union]
  simp [hnone]

end CharSet

/-! ## Languages -/

namespace Expr

/-- There is no test on places in an expression. -/
def isPlain : Expr → Bool
  | .empty => true
  | .set _ => true
  | .assertion _ => false
  | .seq first second => first.isPlain && second.isPlain
  | .alt left right => left.isPlain && right.isPlain
  | .repeated body _ _ => body.isPlain

/-- The texts that an expression matches if it has no test on places. -/
def language : Expr → CharLanguage
  | .empty => 1
  | .set chars => {cs | ∃ c, chars.contains c = true ∧ cs = [c]}
  | .assertion _ => 0
  | .seq first second => first.language * second.language
  | .alt left right => left.language + right.language
  | .repeated body least most =>
    {cs | ∃ times, least ≤ times ∧ (∀ bound ∈ most, times ≤ max least bound) ∧
      cs ∈ body.language ^ times}

/-- What a set matches is told by its characters. -/
theorem mem_language_set {chars : CharSet} {P : Char → Prop}
    (h : ∀ c, chars.contains c = true ↔ P c) {cs : List Char} :
    cs ∈ (set chars).language ↔ ∃ c, P c ∧ cs = [c] :=
  exists_congr (fun c => and_congr_left' (h c))

theorem mem_language_repeated {body : Expr} {least : Nat} {most : Option Nat} {cs : List Char} :
    cs ∈ (repeated body least most).language ↔ ∃ times, least ≤ times ∧
      (∀ bound ∈ most, times ≤ max least bound) ∧ cs ∈ body.language ^ times := Iff.rfl

theorem times_iff {step : Position → Position → Prop} {l : CharLanguage}
    (h : ∀ p q, step p q ↔ ∃ cs ∈ l, Position.Leads cs p q) (n : Nat) (p q : Position) :
    Times step n p q ↔ ∃ cs ∈ l ^ n, Position.Leads cs p q := by
  induction n generalizing p with
  | zero => simp [Times, Position.Leads]
  | succ n ih => simp only [Times, h, ih, pow_succ', Position.exists_leads_mul]

/-- A match runs from one place to another exactly if a text of the language leads there. -/
theorem matches_iff_leads {e : Expr} (h : e.isPlain = true) (p q : Position) :
    e.Matches p q ↔ ∃ cs ∈ e.language, Position.Leads cs p q := by
  induction e generalizing p q with
  | empty => simp [Matches, language, Position.Leads]
  | set chars =>
    constructor
    · rintro ⟨c, rest, hrest, hc, rfl⟩
      exact ⟨[c], ⟨c, hc, rfl⟩, rest, hrest, rfl⟩
    · rintro ⟨_, ⟨c, hc, rfl⟩, rest, hrest, rfl⟩
      exact ⟨c, rest, hrest, hc, rfl⟩
  | assertion a => cases h
  | seq first second ih₁ ih₂ =>
    rw [isPlain, Bool.and_eq_true] at h
    simp only [Matches, language, ih₁ h.1, ih₂ h.2, Position.exists_leads_mul]
  | alt left right ih₁ ih₂ =>
    rw [isPlain, Bool.and_eq_true] at h
    simp only [Matches, language, Language.mem_add, ih₁ h.1, ih₂ h.2, or_and_right, exists_or]
  | repeated body least most ih =>
    simp only [Matches, mem_language_repeated, times_iff (ih h)]
    constructor
    · rintro ⟨times, hleast, hmost, cs, hcs, hq⟩
      exact ⟨cs, ⟨times, hleast, hmost, hcs⟩, hq⟩
    · rintro ⟨cs, ⟨times, hleast, hmost, hcs⟩, hq⟩
      exact ⟨times, hleast, hmost, cs, hcs, hq⟩

/-- An expression a fixed number of times in a row. -/
theorem language_repeated_self (body : Expr) (times : Nat) :
    (repeated body times (some times)).language = body.language ^ times := by
  ext cs
  simp only [mem_language_repeated, Option.mem_def, Option.some.injEq, forall_eq', max_self]
  constructor
  · rintro ⟨n, hleast, hmost, hcs⟩
    rwa [Nat.le_antisymm hmost hleast] at hcs
  · intro hcs
    exact ⟨times, Nat.le_refl _, Nat.le_refl _, hcs⟩

end Expr

end CauseLists
