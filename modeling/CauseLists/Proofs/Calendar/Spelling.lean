-- Days and times in writing. What a day, a time of day, a fraction of a second and an offset look
-- like, told by rows of digits with marks between them; days and times have one writing each, and
-- it is the text that they are given.
import CauseLists.Proofs.Calendar.Days
import CauseLists.Proofs.Text.Numeral

namespace CauseLists

open Text

/-! ## What is written -/

/-- A day in four, two and two digits, with hyphens between them. -/
inductive WritesDate : Date → List Char → Prop
  | parts {year month day : Nat} {y m d : List Char} (hyear : IsNumeral 4 year y)
      (hmonth : IsNumeral 2 month m) (hday : IsNumeral 2 day d) :
      WritesDate ⟨year, month, day⟩ (y ++ '-' :: (m ++ '-' :: d))

/-- An hour, a minute and a second in two digits each, with colons between them. -/
inductive WritesTime : (hour minute second : Nat) → List Char → Prop
  | parts {hour minute second : Nat} {h m s : List Char} (hhour : IsNumeral 2 hour h)
      (hminute : IsNumeral 2 minute m) (hsecond : IsNumeral 2 second s) :
      WritesTime hour minute second (h ++ ':' :: (m ++ ':' :: s))

/-- A point and the digits of a fraction of a second; nothing if there are no digits. -/
def fractionText (digits : List Char) : List Char :=
  if digits = [] then [] else '.' :: digits

/-- The sign, the hours and the minutes of an offset. -/
def offsetText (sign : Char) (minutes : Nat) : List Char :=
  sign :: ((padded 2 (minutes / 60)).toList ++ ':' :: (padded 2 (minutes % 60)).toList)

/-- The ways to write an offset of so many minutes; universal time has letters of its own, and
either sign. -/
def zoneTexts (minutes : Int) : List (List Char) :=
  if minutes = 0 then [['Z'], ['z'], offsetText '+' 0, offsetText '-' 0]
  else [offsetText (if minutes < 0 then '-' else '+') minutes.natAbs]

theorem WritesDate.length {d : Date} {cs : List Char} (h : WritesDate d cs) : cs.length = 10 := by
  obtain ⟨hyear, hmonth, hday⟩ := h
  simp [hyear.length, hmonth.length, hday.length]

theorem WritesTime.length {hour minute second : Nat} {cs : List Char}
    (h : WritesTime hour minute second cs) : cs.length = 8 := by
  obtain ⟨hhour, hminute, hsecond⟩ := h
  simp [hhour.length, hminute.length, hsecond.length]

theorem WritesDate.year_bounds {d : Date} {cs : List Char} (h : WritesDate d cs) :
    0 ≤ d.year ∧ d.year ≤ 9999 := by
  obtain ⟨hyear, -, -⟩ := h
  have hlt := hyear.lt
  dsimp only
  omega

/-! ## The texts of days and times -/

theorem toList_text_of_year {d : Date} (hlow : 0 ≤ d.year) (hhigh : d.year ≤ 9999) :
    d.text.toList = (padded 4 d.year.toNat).toList ++
      '-' :: ((padded 2 d.month).toList ++ '-' :: (padded 2 d.day).toList) := by
  have hyear : yearText d.year = padded 4 d.year.toNat := by
    simp [yearText, hlow, hhigh]
  simp [Date.text, hyear]

theorem toList_timeText (second : Nat) : (timeText second).toList =
    (padded 2 (second / 3600)).toList ++ ':' :: ((padded 2 (second / 60 % 60)).toList ++
      ':' :: (padded 2 (second % 60)).toList) := by
  simp [timeText]

/-- A day that exists is written by its text, if four digits are enough for its year. -/
theorem writesDate_text {d : Date} (hexists : d.exists? = true) (hlow : 0 ≤ d.year)
    (hhigh : d.year ≤ 9999) : WritesDate d d.text.toList := by
  obtain ⟨-, hmonth, -, hday⟩ := d.exists?_iff.mp hexists
  have hlength : Date.daysOfMonth d.year d.month ≤ 31 := by
    unfold Date.daysOfMonth
    split
    · split <;> decide
    · split <;> decide
  obtain ⟨year, month, day⟩ := d
  obtain ⟨year, rfl⟩ := Int.eq_ofNat_of_zero_le hlow
  rw [toList_text_of_year hlow hhigh]
  refine .parts (isNumeral_padded (by decide) ?_) (isNumeral_padded (by decide) ?_)
    (isNumeral_padded (by decide) ?_)
  · show year < 10 ^ 4
    dsimp only at hhigh
    omega
  · exact Nat.lt_of_le_of_lt hmonth (by decide)
  · exact Nat.lt_of_le_of_lt (Nat.le_trans hday hlength) (by decide)

theorem writesTime_timeText {second : Nat} (h : second < 86400) :
    WritesTime (second / 3600) (second / 60 % 60) (second % 60) (timeText second).toList := by
  rw [toList_timeText]
  exact .parts (isNumeral_padded (by decide) (by omega)) (isNumeral_padded (by decide) (by omega))
    (isNumeral_padded (by decide) (by omega))

theorem WritesDate.eq_text {d : Date} {cs : List Char} (h : WritesDate d cs) :
    cs = d.text.toList := by
  obtain ⟨hlow, hhigh⟩ := h.year_bounds
  rw [toList_text_of_year hlow hhigh]
  obtain ⟨hyear, hmonth, hday⟩ := h
  rw [hyear.eq_padded (by decide), hmonth.eq_padded (by decide), hday.eq_padded (by decide),
    Int.toNat_natCast]

theorem WritesTime.eq_timeText {hour minute second : Nat} {cs : List Char}
    (h : WritesTime hour minute second cs) (hminute : minute ≤ 59) (hsecond : second ≤ 59) :
    cs = (timeText (hour * 3600 + minute * 60 + second)).toList := by
  have hhours : (hour * 3600 + minute * 60 + second) / 3600 = hour := by omega
  have hminutes : (hour * 3600 + minute * 60 + second) / 60 % 60 = minute := by omega
  have hseconds : (hour * 3600 + minute * 60 + second) % 60 = second := by omega
  rw [toList_timeText, hhours, hminutes, hseconds]
  obtain ⟨hhourText, hminuteText, hsecondText⟩ := h
  rw [hhourText.eq_padded (by decide), hminuteText.eq_padded (by decide),
    hsecondText.eq_padded (by decide)]

end CauseLists
