-- Numerals. What the readers of numbers accept, and the number that they read: digits of ASCII, as
-- many as there are, behind at most one plus sign. A number is written by one row of digits of a
-- given length, and by none that is shorter than its decimal text.
import CauseLists.Text.Numeral
import Mathlib.Algebra.Group.Nat.Defs

namespace CauseLists.Text

theorem isDigit_iff (c : Char) : isDigit c = true ↔ '0' ≤ c ∧ c ≤ '9' := by
  simp [isDigit]

theorem readDigits_eq_some_iff (cs : List Char) (n : Nat) :
    readDigits cs = some n ↔
      cs ≠ [] ∧ (∀ c ∈ cs, '0' ≤ c ∧ c ≤ '9') ∧ valueOf cs = n := by
  unfold readDigits
  simp only [List.all_eq_true, isDigit_iff, Option.ite_none_right_eq_some, Option.some.injEq,
    and_assoc]

theorem readNatural_eq_some_iff (limit n : Nat) (cs : List Char) :
    readNatural limit cs = some n ↔ ∃ sign digits, (sign = [] ∨ sign = ['+']) ∧
      digits ≠ [] ∧ (∀ c ∈ digits, '0' ≤ c ∧ c ≤ '9') ∧ valueOf digits = n ∧ n ≤ limit ∧
      cs = sign ++ digits := by
  have hread : ∀ digits, (readDigits digits).filter (· ≤ limit) = some n ↔
      digits ≠ [] ∧ (∀ c ∈ digits, '0' ≤ c ∧ c ≤ '9') ∧ valueOf digits = n ∧ n ≤ limit := by
    intro digits
    rw [Option.filter_eq_some_iff, decide_eq_true_eq, readDigits_eq_some_iff, and_assoc, and_assoc]
  unfold readNatural
  constructor
  · intro h
    dsimp only at h
    split at h
    · rename_i rest
      obtain ⟨hsome, hdigits, hvalue, hbound⟩ := (hread rest).mp h
      exact ⟨['+'], rest, .inr rfl, hsome, hdigits, hvalue, hbound, rfl⟩
    · obtain ⟨hsome, hdigits, hvalue, hbound⟩ := (hread cs).mp h
      exact ⟨[], cs, .inl rfl, hsome, hdigits, hvalue, hbound, rfl⟩
  · rintro ⟨sign, digits, hsign, hsome, hdigits, hvalue, hbound, rfl⟩
    have hnumeral := (hread digits).mpr ⟨hsome, hdigits, hvalue, hbound⟩
    rcases hsign with rfl | rfl
    · dsimp only
      split
      · -- A digit is no plus sign.
        rename_i rest heq
        obtain rfl : digits = '+' :: rest := heq
        exact absurd (hdigits '+' List.mem_cons_self) (by decide)
      · exact hnumeral
    · exact hnumeral

/-! ## Values -/

theorem valueOf_eq_ofDigitChars (cs : List Char) : valueOf cs = Nat.ofDigitChars 10 cs 0 := by
  simp only [valueOf, digitValue, Nat.ofDigitChars_eq_foldl, Nat.mul_comm]

theorem digitValue_lt {c : Char} (h : '0' ≤ c ∧ c ≤ '9') : digitValue c < 10 := by
  obtain ⟨hlow, hhigh⟩ := h
  have hnine : c.toNat ≤ '9'.toNat := hhigh
  have hten : '9'.toNat = '0'.toNat + 9 := rfl
  unfold digitValue
  omega

theorem digitValue_inj {c d : Char} (hc : '0' ≤ c ∧ c ≤ '9') (hd : '0' ≤ d ∧ d ≤ '9')
    (h : digitValue c = digitValue d) : c = d := by
  have hclow : '0'.toNat ≤ c.toNat := hc.1
  have hdlow : '0'.toNat ≤ d.toNat := hd.1
  unfold digitValue at h
  exact Char.toNat_inj.mp (by omega)

theorem valueOf_cons (c : Char) (cs : List Char) :
    valueOf (c :: cs) = 10 ^ cs.length * digitValue c + valueOf cs := by
  have hfirst : Nat.ofDigitChars 10 (c :: cs) 0 = Nat.ofDigitChars 10 cs (digitValue c) := by
    simp [Nat.ofDigitChars_cons, digitValue]
  rw [valueOf_eq_ofDigitChars, valueOf_eq_ofDigitChars, hfirst,
    Nat.ofDigitChars_eq_ofDigitChars_zero]

theorem valueOf_lt {cs : List Char} (h : ∀ c ∈ cs, '0' ≤ c ∧ c ≤ '9') :
    valueOf cs < 10 ^ cs.length := by
  induction cs with
  | nil => exact Nat.one_pos
  | cons c cs ih =>
    have hc := digitValue_lt (h c List.mem_cons_self)
    have hcs := ih (fun d hd => h d (List.mem_cons_of_mem c hd))
    have hmul : 10 ^ cs.length * digitValue c ≤ 10 ^ cs.length * 9 :=
      Nat.mul_le_mul_left _ (by omega)
    rw [valueOf_cons, List.length_cons, Nat.pow_succ]
    omega

/-- Rows of digits of one length write one number only if they are the same. -/
theorem valueOf_inj {cs ds : List Char} (hcs : ∀ c ∈ cs, '0' ≤ c ∧ c ≤ '9')
    (hds : ∀ c ∈ ds, '0' ≤ c ∧ c ≤ '9') (hlength : cs.length = ds.length)
    (h : valueOf cs = valueOf ds) : cs = ds := by
  induction cs generalizing ds with
  | nil => exact (List.length_eq_zero_iff.mp hlength.symm).symm
  | cons c cs ih =>
    cases ds with
    | nil => cases hlength
    | cons d ds =>
      have hrest : cs.length = ds.length := Nat.succ.inj hlength
      have hcs' : ∀ c ∈ cs, '0' ≤ c ∧ c ≤ '9' := fun x hx => hcs x (List.mem_cons_of_mem c hx)
      have hds' : ∀ c ∈ ds, '0' ≤ c ∧ c ≤ '9' := fun x hx => hds x (List.mem_cons_of_mem d hx)
      have hlow := valueOf_lt hcs'
      have hlow' := valueOf_lt hds'
      -- The first digit is the quotient by the weight of its place, and the others the remainder.
      rw [valueOf_cons, valueOf_cons, ← hrest] at h
      rw [← hrest] at hlow'
      have hfirst : digitValue c = digitValue d := by
        have hdiv := congrArg (· / 10 ^ cs.length) h
        simpa [Nat.mul_add_div (Nat.pow_pos (by decide : 0 < 10)), Nat.div_eq_of_lt hlow,
          Nat.div_eq_of_lt hlow'] using hdiv
      rw [hfirst] at h
      rw [digitValue_inj (hcs c List.mem_cons_self) (hds d List.mem_cons_self) hfirst,
        ih hcs' hds' hrest (Nat.add_left_cancel h)]

/-! ## Decimal texts -/

theorem digits_toDigits (n : Nat) : ∀ c ∈ Nat.toDigits 10 n, '0' ≤ c ∧ c ≤ '9' := by
  intro c hc
  have hdigit : c.isDigit = true := Nat.isDigit_of_mem_toDigits (by decide) (by decide) hc
  unfold Char.isDigit at hdigit
  rw [Bool.and_eq_true, decide_eq_true_eq, decide_eq_true_eq] at hdigit
  exact hdigit

theorem valueOf_toDigits (n : Nat) : valueOf (Nat.toDigits 10 n) = n := by
  rw [valueOf_eq_ofDigitChars, Nat.ofDigitChars_ten_toDigits]

/-- No row of digits that writes a number is shorter than its decimal text. -/
theorem length_toDigits_valueOf_le {cs : List Char} (hsome : cs ≠ [])
    (h : ∀ c ∈ cs, '0' ≤ c ∧ c ≤ '9') : (Nat.toDigits 10 (valueOf cs)).length ≤ cs.length :=
  (Nat.length_toDigits_le_iff (by decide) (List.length_pos_iff.mpr hsome)).mpr (valueOf_lt h)

/-! ## Numerals of a given length -/

/-- A row of so many digits that writes a number. -/
structure IsNumeral (width n : Nat) (cs : List Char) : Prop where
  length : cs.length = width
  digits : ∀ c ∈ cs, '0' ≤ c ∧ c ≤ '9'
  value : valueOf cs = n

/-- A row of digits writes its own value. -/
theorem IsNumeral.itself {width n : Nat} {cs : List Char} (h : IsNumeral width n cs) :
    IsNumeral width (valueOf cs) cs :=
  ⟨h.length, h.digits, rfl⟩

theorem toList_padded (width n : Nat) : (padded width n).toList =
    List.replicate (width - (Nat.toDigits 10 n).length) '0' ++ Nat.toDigits 10 n := by
  simp [padded, Nat.repr_eq_ofList_toDigits]

theorem le_length_padded (width n : Nat) : width ≤ (padded width n).toList.length := by
  rw [toList_padded, List.length_append, List.length_replicate]
  omega

theorem isNumeral_padded {width n : Nat} (hwidth : 0 < width) (h : n < 10 ^ width) :
    IsNumeral width n (padded width n).toList := by
  have hlength : (Nat.toDigits 10 n).length ≤ width :=
    (Nat.length_toDigits_le_iff (by decide) hwidth).mpr h
  rw [toList_padded]
  refine ⟨?_, ?_, ?_⟩
  · rw [List.length_append, List.length_replicate]
    omega
  · intro c hc
    rcases List.mem_append.mp hc with hc | hc
    · obtain rfl := List.eq_of_mem_replicate hc
      decide
    · exact digits_toDigits n c hc
  · rw [valueOf_eq_ofDigitChars, Nat.ofDigitChars_append, Nat.ofDigitChars_replicate_zero,
      Nat.mul_zero, Nat.ofDigitChars_ten_toDigits]

theorem IsNumeral.lt {width n : Nat} {cs : List Char} (h : IsNumeral width n cs) :
    n < 10 ^ width := by
  have hlt := valueOf_lt h.digits
  rwa [h.value, h.length] at hlt

theorem IsNumeral.eq_padded {width n : Nat} {cs : List Char} (hwidth : 0 < width)
    (h : IsNumeral width n cs) : cs = (padded width n).toList := by
  have hpadded := isNumeral_padded hwidth h.lt
  exact valueOf_inj h.digits hpadded.digits (h.length.trans hpadded.length.symm)
    (h.value.trans hpadded.value.symm)

end CauseLists.Text
