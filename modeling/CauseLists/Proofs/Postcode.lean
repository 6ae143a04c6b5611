-- Postcodes. The pattern of postcodes is a row of languages, one for each part of a postcode, and
-- what it accepts is told by the forms that stand in front of the space and by the letters that
-- stand at the end.
import CauseLists.Bundled.Regex.Reader
import CauseLists.Proofs.Pattern.Rows

namespace CauseLists.Format

open CauseLists.Expr

/-! ## Forms -/

/-- What stands where a form has an `A` or a `9`: a capital letter or a digit. -/
def Stands (form c : Char) : Prop :=
  (form = 'A' ∧ 'A' ≤ c ∧ c ≤ 'Z') ∨ (form = '9' ∧ '0' ≤ c ∧ c ≤ '9')

/-- A character that can stand in one place of a form. -/
def placeOf (form : Char) : CharLanguage := {cs | ∃ c, Stands form c ∧ cs = [c]}

/-- The texts that have a form, place by place. -/
def ofForm (form : List Char) : CharLanguage := (form.map placeOf).prod

theorem mem_ofForm {form cs : List Char} : cs ∈ ofForm form ↔ List.Forall₂ Stands form cs := by
  induction form generalizing cs with
  | nil => simp [ofForm]
  | cons f form ih =>
    have hcons : ofForm (f :: form) = placeOf f * ofForm form := rfl
    rw [hcons, Language.mem_mul, List.forall₂_cons_left_iff]
    simp only [ih]
    constructor
    · rintro ⟨_, ⟨c, hc, rfl⟩, rest, hrest, rfl⟩
      exact ⟨c, rest, hc, hrest, rfl⟩
    · rintro ⟨c, rest, hc, hrest, rfl⟩
      exact ⟨[c], ⟨c, hc, rfl⟩, rest, hrest, rfl⟩

theorem ofForm_append (form more : List Char) :
    ofForm (form ++ more) = ofForm form * ofForm more := by
  unfold ofForm
  rw [List.map_append, List.prod_append]

theorem ofForm_singleton (form : Char) : ofForm [form] = placeOf form := by
  unfold ofForm
  rw [List.map_singleton, List.prod_singleton]

theorem language_capital : capital.language = ofForm ['A'] := by
  rw [ofForm_singleton]
  ext cs
  refine mem_language_set (fun c => ?_)
  simp [CharSet.contains_unions_iff, CharSet.contains_between_iff, Stands]

theorem language_digit : digit.language = ofForm ['9'] := by
  rw [ofForm_singleton]
  ext cs
  rw [mem_language_digit]
  refine exists_congr (fun c => and_congr_left' ?_)
  simp [Stands]

theorem language_two (e : Expr) : (times 2 e).language = e.language * e.language := by
  rw [language_times, pow_two]

theorem language_oneOrTwoDigits :
    oneOrTwoDigits.language = ofForm ['9'] + ofForm ['9', '9'] := by
  have htwo : ofForm ['9', '9'] = digit.language ^ 2 := by
    rw [pow_two, language_digit, ← ofForm_append]
    rfl
  ext cs
  rw [Language.mem_add, htwo, ← language_digit]
  unfold oneOrTwoDigits
  simp only [mem_language_repeated, Option.mem_def, Option.some.injEq, forall_eq']
  constructor
  · rintro ⟨times, hleast, hmost, hcs⟩
    obtain rfl | rfl : times = 1 ∨ times = 2 := by omega
    · rw [pow_one] at hcs
      exact .inl hcs
    · exact .inr hcs
  · rintro (hcs | hcs)
    · exact ⟨1, by decide, by decide, by rwa [pow_one]⟩
    · exact ⟨2, by decide, by decide, hcs⟩

/-- The forms of the part of a postcode in front of its space. -/
def outwardForms : List String := ["A9", "A99", "AA9", "AA99", "A9A", "AA9A"]

theorem language_outward :
    outward.language = (outwardForms.map (fun form => ofForm form.toList)).sum := by
  unfold outward
  rw [language_anyOf _ (by simp)]
  simp only [List.map_cons, List.map_nil, language_inTurn, language_two, language_capital,
    language_digit, language_oneOrTwoDigits, List.prod_cons, List.prod_nil, List.sum_cons,
    List.sum_nil, mul_one, add_zero, mul_add, ← ofForm_append, outwardForms, List.cons_append,
    List.nil_append, add_assoc]
  rfl

theorem mem_sum_iff {ls : List CharLanguage} {cs : List Char} :
    cs ∈ ls.sum ↔ ∃ l ∈ ls, cs ∈ l := by
  induction ls with
  | nil => simp
  | cons l ls ih => simp [Language.mem_add, ih]

theorem mem_language_outward {cs : List Char} :
    cs ∈ outward.language ↔ ∃ form ∈ outwardForms, List.Forall₂ Stands form.toList cs := by
  rw [language_outward, mem_sum_iff]
  simp [mem_ofForm]

/-! ## Postcodes -/

/-- A letter that can stand at the end of a postcode. -/
def IsInwardLetter (c : Char) : Prop := 'A' ≤ c ∧ c ≤ 'Z' ∧ c ∉ ['C', 'I', 'K', 'M', 'O', 'V']

theorem mem_language_inwardLetter {cs : List Char} :
    cs ∈ inwardLetter.language ↔ ∃ c, IsInwardLetter c ∧ cs = [c] := by
  refine mem_language_set (fun c => ?_)
  -- told by code points, the ranges of the pattern leave out just the six letters
  have hle : ∀ a b : Char, a ≤ b ↔ a.toNat ≤ b.toNat := fun _ _ => Iff.rfl
  simp only [CharSet.contains_unions_iff, CharSet.contains_single_iff, CharSet.contains_between_iff,
    IsInwardLetter, List.mem_cons, List.not_mem_nil, exists_eq_or_imp, exists_eq_left, or_false,
    hle, ← Char.toNat_inj, Char.reduceToNat]
  omega

/-- The texts that are postcodes: one of its own, and all that have a part of one of the forms, a
space, a digit and two letters, in this order. -/
inductive IsPostcode : List Char → Prop
  | apart : IsPostcode "GIR 0AA".toList
  | regular {form : String} {front : List Char} {digit first second : Char}
      (hform : form ∈ outwardForms) (hfront : List.Forall₂ Stands form.toList front)
      (hdigit : '0' ≤ digit ∧ digit ≤ '9') (hfirst : IsInwardLetter first)
      (hsecond : IsInwardLetter second) : IsPostcode (front ++ [' ', digit, first, second])

theorem mem_language_anyPostcode {cs : List Char} :
    cs ∈ anyPostcode.language ↔ IsPostcode cs := by
  have hspace : ∀ {cs}, cs ∈ (literally " ").language ↔ cs = [' '] := by
    intro cs
    exact mem_language_literally " " cs
  unfold anyPostcode
  rw [language_anyOf _ (by simp)]
  simp only [List.map_cons, List.map_nil, List.sum_cons, List.sum_nil, add_zero, Language.mem_add,
    mem_language_literally, language_inTurn, List.prod_cons, List.prod_nil, mul_one, language_two,
    Language.mem_mul, mem_language_outward, hspace, mem_language_digit,
    mem_language_inwardLetter]
  constructor
  · rintro (rfl | ⟨front, ⟨form, hform, hfront⟩, _, ⟨_, rfl, _, ⟨_, ⟨d, hd, rfl⟩, _,
      ⟨_, ⟨x, hx, rfl⟩, _, ⟨y, hy, rfl⟩, rfl⟩, rfl⟩, rfl⟩, rfl⟩)
    · exact .apart
    · exact .regular hform hfront hd hx hy
  · rintro (_ | ⟨hform, hfront, hd, hx, hy⟩)
    · exact .inl rfl
    · exact .inr ⟨_, ⟨_, hform, hfront⟩, _, ⟨_, rfl, _, ⟨_, ⟨_, hd, rfl⟩, _,
        ⟨_, ⟨_, hx, rfl⟩, _, ⟨_, hy, rfl⟩, rfl⟩, rfl⟩, rfl⟩, rfl⟩

/-- The pattern as it is written. -/
theorem read_postcodeExpr :
    Regex.read .rules ("^(?:GIR 0AA|(?:[A-Z][0-9]\x7b1,2\x7d|[A-Z]\x7b2\x7d[0-9]\x7b1,2\x7d|" ++
      "[A-Z][0-9][A-Z]|[A-Z]\x7b2\x7d[0-9][A-Z]) [0-9][ABD-HJLNP-UW-Z]\x7b2\x7d)$") =
        .ok postcodeExpr := by
  rfl

/-- A text is accepted as a postcode exactly if it is one from end to end, and otherwise refused as
malformed. -/
theorem postcodes_are_accepted_by_their_forms (value : String) :
    (checkPostcode value = .ok () ↔ IsPostcode value.toList) ∧
    (¬IsPostcode value.toList →
      checkPostcode value = .error (.malformed value "a UK postcode such as SW1A 1AA")) := by
  have hoccurs : postcodeExpr.occursIn value = true ↔ IsPostcode value.toList := by
    have hplain : anyPostcode.isPlain = true := rfl
    have hends := occursIn_fromEndToEnd_iff (List.forall_mem_singleton.mpr hplain) value
    rwa [List.map_singleton, List.prod_singleton, mem_language_anyPostcode] at hends
  unfold checkPostcode
  rw [← hoccurs]
  constructor
  · split <;> simp_all
  · intro hno
    rw [if_neg hno]

/-- A postcode of the last form, and the same with a letter at its end that no postcode has. -/
theorem the_inward_letters_are_looked_at :
    IsPostcode "EC1A 1BB".toList ∧ checkPostcode "EC1A 1BB" = .ok () ∧
      ¬IsPostcode "EC1A 1BC".toList := by
  have hfits : IsPostcode "EC1A 1BB".toList := by
    refine @IsPostcode.regular "AA9A" ['E', 'C', '1', 'A'] '1' 'B' 'B' ?_ ?_ ?_ ?_ ?_
    · simp [outwardForms]
    · simp [Stands]
    · decide
    · simp [IsInwardLetter]
    · simp [IsInwardLetter]
  refine ⟨hfits, (postcodes_are_accepted_by_their_forms "EC1A 1BB").1.mpr hfits, ?_⟩
  intro h
  have haccepted := (postcodes_are_accepted_by_their_forms "EC1A 1BC").1.mpr h
  exact absurd haccepted (by decide +kernel)

end CauseLists.Format
