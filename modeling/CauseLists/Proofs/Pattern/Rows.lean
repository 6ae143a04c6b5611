-- Rows of expressions and choices between them. The language of a row is the product of the
-- languages of its parts, and a row between the two ends of a text is found in the texts of that
-- language.
import CauseLists.Format
import CauseLists.Proofs.Pattern.Languages

namespace CauseLists.Format

open CauseLists.Expr

theorem language_foldl_seq (e : Expr) (more : List Expr) :
    (more.foldl .seq e).language = e.language * (more.map language).prod := by
  induction more generalizing e with
  | nil => simp
  | cons next more ih =>
    rw [List.foldl_cons, ih, List.map_cons, List.prod_cons, ← mul_assoc]
    rfl

theorem language_inTurn (exprs : List Expr) :
    (inTurn exprs).language = (exprs.map language).prod := by
  cases exprs with
  | nil => rfl
  | cons first more => exact language_foldl_seq first more

theorem language_foldl_alt (e : Expr) (more : List Expr) :
    (more.foldl .alt e).language = e.language + (more.map language).sum := by
  induction more generalizing e with
  | nil => simp
  | cons next more ih =>
    rw [List.foldl_cons, ih, List.map_cons, List.sum_cons, ← add_assoc]
    rfl

theorem language_anyOf (exprs : List Expr) (h : exprs ≠ []) :
    (anyOf exprs).language = (exprs.map language).sum := by
  cases exprs with
  | nil => exact absurd rfl h
  | cons first more => exact language_foldl_alt first more

theorem mem_language_literally (text : String) (cs : List Char) :
    cs ∈ (literally text).language ↔ cs = text.toList := by
  unfold literally
  rw [language_inTurn]
  generalize text.toList = ds
  induction ds generalizing cs with
  | nil => rfl
  | cons d ds ih =>
    simp only [List.map_cons, List.prod_cons, Language.mem_mul, ih,
      mem_language_set (fun _ => CharSet.contains_single_iff)]
    constructor
    · rintro ⟨_, ⟨_, rfl, rfl⟩, _, rfl, rfl⟩
      rfl
    · rintro rfl
      exact ⟨[d], ⟨d, rfl, rfl⟩, ds, rfl, rfl⟩

theorem language_times (count : Nat) (e : Expr) : (times count e).language = e.language ^ count :=
  language_repeated_self e count

theorem mem_language_optional {e : Expr} {cs : List Char} :
    cs ∈ (optional e).language ↔ cs = [] ∨ cs ∈ e.language := by
  unfold optional
  simp only [mem_language_repeated, Option.mem_def, Option.some.injEq, forall_eq']
  constructor
  · rintro ⟨count, -, hmost, hcs⟩
    obtain rfl | rfl : count = 0 ∨ count = 1 := by omega
    · exact .inl hcs
    · rw [pow_one] at hcs
      exact .inr hcs
  · rintro (rfl | hcs)
    · exact ⟨0, by decide, by decide, rfl⟩
    · exact ⟨1, by decide, by decide, by rwa [pow_one]⟩

theorem mem_language_digit {cs : List Char} :
    cs ∈ digit.language ↔ ∃ c, ('0' ≤ c ∧ c ≤ '9') ∧ cs = [c] := by
  refine mem_language_set (fun c => ?_)
  simp [CharSet.contains_unions_iff, CharSet.contains_between_iff]

/-! ## From end to end -/

/-- Behind the first expression of a row, which may test places, a match runs along a text. -/
theorem matches_foldl_seq {e : Expr} {more : List Expr} (h : ∀ next ∈ more, next.isPlain = true)
    {p r : Position} : (more.foldl Expr.seq e).Matches p r ↔
      ∃ q, e.Matches p q ∧ ∃ cs ∈ (more.map language).prod, Position.Leads cs q r := by
  induction more generalizing e with
  | nil =>
    constructor
    · intro hmatch
      exact ⟨r, hmatch, [], rfl, rfl⟩
    · rintro ⟨q, hmatch, cs, hcs, hleads⟩
      obtain rfl : cs = [] := hcs
      obtain rfl : r = q := hleads
      exact hmatch
  | cons next more ih =>
    obtain ⟨hnext, hmore⟩ := List.forall_mem_cons.mp h
    rw [List.foldl_cons, ih hmore, List.map_cons, List.prod_cons]
    simp only [Position.exists_leads_mul, ← matches_iff_leads hnext]
    constructor
    · rintro ⟨s, ⟨q, he, hs⟩, hr⟩
      exact ⟨q, he, s, hs, hr⟩
    · rintro ⟨q, he, s, hs, hr⟩
      exact ⟨s, ⟨q, he, hs⟩, hr⟩

/-- A row between the two ends of a text is found in the texts of its language. -/
theorem occursIn_fromEndToEnd_iff {parts : List Expr} (h : ∀ e ∈ parts, e.isPlain = true)
    (text : String) :
    (fromEndToEnd parts).occursIn text = true ↔ text.toList ∈ (parts.map language).prod := by
  have hrow : fromEndToEnd parts =
      .seq (parts.foldl .seq (.assertion .textStart)) (.assertion .textEnd) := by
    rw [fromEndToEnd, inTurn, List.foldl_append]
    rfl
  rw [occursIn_iff, hrow]
  constructor
  · rintro ⟨p, hp, last, q, hq, hend, rfl⟩
    obtain ⟨first, ⟨hstart, rfl⟩, cs, hcs, hleads⟩ := (matches_foldl_seq h).mp hq
    have hof : Position.Of text.toList _ := @Position.of_onward _ [] text.toList hp
    obtain rfl := hof.eq_first (Option.isNone_iff_eq_none.mp hstart)
    have htext : text.toList = cs ++ last.rest := hleads.rest_eq
    rwa [htext, List.isEmpty_iff.mp hend, List.append_nil]
  · intro hcs
    obtain ⟨last, hleads, hend⟩ :=
      @Position.exists_leads text.toList [] (.first text) (List.append_nil _).symm
    exact ⟨.first text, Position.first_mem_onward text, last, last,
      (matches_foldl_seq h).mpr ⟨.first text, ⟨rfl, rfl⟩, _, hcs, hleads⟩,
      List.isEmpty_iff.mpr hend, rfl⟩

end CauseLists.Format
