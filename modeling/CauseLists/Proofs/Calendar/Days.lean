-- Days and their numbers. Counting days and writing them down undo each other: every whole number
-- is the number of one day, that day exists, and a day that exists is the one that its number
-- gives. A year that begins in March has its leap day at the end, so a day is told by the number of
-- its year's first day and by how far it lies into the year.
import CauseLists.Calendar.Instant
import Mathlib.Tactic.IntervalCases

namespace CauseLists.Date

/-! ## Years from March -/

/-- The days from 1 March of the year 0 to 1 March of a year. -/
def startOfYear (year : Int) : Int := 365 * year + year / 4 - year / 100 + year / 400

/-- How many days there are from a 1 March to the next one. -/
def daysOfYear (year : Int) : Nat := if isLeapYear (year + 1) then 366 else 365

theorem isLeapYear_iff (year : Int) :
    isLeapYear year = true ↔ year % 4 = 0 ∧ (year % 100 ≠ 0 ∨ year % 400 = 0) := by
  simp [isLeapYear]

theorem startOfYear_succ (year : Int) :
    startOfYear (year + 1) = startOfYear year + daysOfYear year := by
  have hleap := isLeapYear_iff (year + 1)
  unfold startOfYear daysOfYear
  split
  · rename_i h
    have hyear := hleap.mp h
    omega
  · rename_i h
    have hyear := mt hleap.mpr h
    omega

theorem startOfYear_le {year year' : Int} (h : year ≤ year') :
    startOfYear year ≤ startOfYear year' := by
  unfold startOfYear
  omega

/-- A day is told by its year from March and by how far it lies into it. -/
theorem startOfYear_add_inj {year year' : Int} {inYear inYear' : Nat}
    (h : inYear < daysOfYear year) (h' : inYear' < daysOfYear year')
    (heq : startOfYear year + inYear = startOfYear year' + inYear') :
    year = year' ∧ inYear = inYear' := by
  have hsucc := startOfYear_succ year
  have hsucc' := startOfYear_succ year'
  rcases Int.lt_trichotomy year year' with hlt | rfl | hlt
  · have hle := startOfYear_le (Int.add_one_le_of_lt hlt)
    omega
  · exact ⟨rfl, by omega⟩
  · have hle := startOfYear_le (Int.add_one_le_of_lt hlt)
    omega

/-! ## Days of a year from March -/

/-- The day that lies so far into a year from March. -/
def ofYearDay (year : Int) (inYear : Nat) : Date :=
  let month := (5 * inYear + 2) / 153
  let day := inYear - daysBeforeMonth month + 1
  if month < 10 then ⟨year, month + 3, day⟩ else ⟨year + 1, month - 9, day⟩

/-- How far a day lies into its year from March. -/
def dayOfYear (d : Date) : Nat := daysBeforeMonth d.monthFromMarch + (d.day - 1)

theorem dayNumber_eq {d : Date} (hday : 1 ≤ d.day) :
    d.dayNumber = startOfYear d.yearFromMarch + d.dayOfYear - daysBeforeEpoch := by
  unfold dayNumber startOfYear dayOfYear
  push_cast [hday]
  omega

theorem exists?_iff (d : Date) : d.exists? = true ↔
    1 ≤ d.month ∧ d.month ≤ 12 ∧ 1 ≤ d.day ∧ d.day ≤ daysOfMonth d.year d.month := by
  simp [exists?, and_assoc]

theorem daysOfYear_cases (year : Int) : daysOfYear year = 365 ∨ daysOfYear year = 366 := by
  unfold daysOfYear
  split
  · exact .inr rfl
  · exact .inl rfl

theorem daysOfFebruary (year : Int) :
    (if isLeapYear year then 29 else 28) + 337 = daysOfYear (year - 1) := by
  rw [daysOfYear, Int.sub_add_cancel]
  split <;> rfl

/-- A month ends where the next one begins, or with its year from March. -/
theorem daysBeforeMonth_add_daysOfMonth {d : Date} (hfirst : 1 ≤ d.month) (hlast : d.month ≤ 12) :
    daysBeforeMonth d.monthFromMarch + daysOfMonth d.year d.month =
      min (daysBeforeMonth (d.monthFromMarch + 1)) (daysOfYear d.yearFromMarch) := by
  obtain ⟨year, month, day⟩ := d
  have hyear := daysOfYear_cases year
  have hbefore := daysOfYear_cases (year - 1)
  have hfebruary := daysOfFebruary year
  simp only at hfirst hlast
  interval_cases month <;>
    simp only [daysBeforeMonth, monthFromMarch, yearFromMarch, daysOfMonth, Nat.reduceBEq,
      Nat.reduceLeDiff, Bool.or_true, Bool.or_false, if_true, if_false, Bool.false_eq_true] <;>
    omega

/-- The month into which a day of a year from March falls. -/
theorem daysBeforeMonth_le_iff (inYear month : Nat) :
    month = (5 * inYear + 2) / 153 ↔
      daysBeforeMonth month ≤ inYear ∧ inYear < daysBeforeMonth (month + 1) := by
  unfold daysBeforeMonth
  omega

/-- A day of a year from March is of that year, and lies so far into it. -/
theorem ofYearDay_parts {year : Int} {inYear : Nat} (h : inYear < 366) :
    (ofYearDay year inYear).yearFromMarch = year ∧
      (ofYearDay year inYear).monthFromMarch = (5 * inYear + 2) / 153 ∧
      (ofYearDay year inYear).dayOfYear = inYear ∧ 1 ≤ (ofYearDay year inYear).day ∧
      1 ≤ (ofYearDay year inYear).month ∧ (ofYearDay year inYear).month ≤ 12 := by
  obtain ⟨month, hmonth⟩ : ∃ month, month = (5 * inYear + 2) / 153 := ⟨_, rfl⟩
  have hstart := ((daysBeforeMonth_le_iff inYear month).mp hmonth).1
  unfold ofYearDay
  simp only [← hmonth]
  split
  · rename_i hten
    have hmarch : ¬month + 3 ≤ 2 := by omega
    simp only [yearFromMarch, monthFromMarch, dayOfYear, if_neg hmarch, Nat.add_sub_cancel,
      true_and]
    omega
  · rename_i hten
    have hmarch : month - 9 ≤ 2 := by omega
    have hback : month - 9 + 9 = month := by omega
    simp only [yearFromMarch, monthFromMarch, dayOfYear, if_pos hmarch, hback,
      Nat.add_sub_cancel, true_and]
    omega

theorem exists?_ofYearDay {year : Int} {inYear : Nat} (h : inYear < daysOfYear year) :
    (ofYearDay year inYear).exists? = true := by
  have hbound := daysOfYear_cases year
  obtain ⟨hyear, hmonth, hinYear, hday, hfirst, hlast⟩ :=
    @ofYearDay_parts year inYear (by omega)
  have hend := ((daysBeforeMonth_le_iff inYear _).mp hmonth).2
  have hlength := daysBeforeMonth_add_daysOfMonth hfirst hlast
  rw [hyear] at hlength
  unfold dayOfYear at hinYear
  rw [exists?_iff]
  omega

/-- A day that exists is the one that lies so far into its year from March. -/
theorem ofYearDay_dayOfYear {d : Date} (h : d.exists? = true) :
    ofYearDay d.yearFromMarch d.dayOfYear = d ∧ d.dayOfYear < daysOfYear d.yearFromMarch := by
  obtain ⟨hfirst, hlast, hday, hend⟩ := (exists?_iff d).mp h
  have hlength := daysBeforeMonth_add_daysOfMonth hfirst hlast
  have hmonth : d.monthFromMarch = (5 * d.dayOfYear + 2) / 153 := by
    rw [daysBeforeMonth_le_iff]
    unfold dayOfYear
    omega
  refine ⟨?_, by unfold dayOfYear; omega⟩
  unfold ofYearDay
  simp only [← hmonth]
  obtain ⟨year, month, day⟩ := d
  simp only at hfirst hlast hday
  by_cases hjanuary : month ≤ 2
  · simp only [yearFromMarch, monthFromMarch, dayOfYear, if_pos hjanuary]
    rw [if_neg (by omega)]
    congr 1 <;> omega
  · simp only [yearFromMarch, monthFromMarch, dayOfYear, if_neg hjanuary]
    rw [if_pos (by omega)]
    congr 1 <;> omega

/-! ## Numbers of days -/

/-- Every number falls into a year. -/
theorem ofDayNumber_eq (n : Int) : ∃ (year : Int) (inYear : Nat),
    ofDayNumber n = ofYearDay year inYear ∧ n + daysBeforeEpoch = startOfYear year + inYear ∧
      inYear < daysOfYear year := by
  let days := n + daysBeforeEpoch
  let inEra := (days % 146097).toNat
  let century := min (inEra / 36524) 3
  let inCentury := inEra - 36524 * century
  let inFour := inCentury % 1461
  let yearOfFour := min (inFour / 365) 3
  let inYear := inFour - 365 * yearOfFour
  let year : Int :=
    400 * (days / 146097) + 100 * century + 4 * (inCentury / 1461 : Nat) + yearOfFour
  refine ⟨year, inYear, rfl, ?_, ?_⟩
  · -- The years of a span make up whole numbers of spans of 4, 100 and 400 years.
    have hfour : year / 4 = 100 * (days / 146097) + 25 * century + (inCentury / 1461 : Nat) := by
      omega
    have hcentury : year / 100 = 4 * (days / 146097) + century := by omega
    have hera : year / 400 = days / 146097 := by omega
    show days = startOfYear year + inYear
    unfold startOfYear
    omega
  · have hleap := isLeapYear_iff (year + 1)
    unfold daysOfYear
    split
    · omega
    · rename_i h
      have hyear := mt hleap.mpr h
      omega

theorem exists?_ofDayNumber (n : Int) : (ofDayNumber n).exists? = true := by
  obtain ⟨year, inYear, hdate, -, hbound⟩ := ofDayNumber_eq n
  rw [hdate]
  exact exists?_ofYearDay hbound

/-- The number of the day with a number is that number. -/
theorem dayNumber_ofDayNumber (n : Int) : (ofDayNumber n).dayNumber = n := by
  obtain ⟨year, inYear, hdate, hnumber, hbound⟩ := ofDayNumber_eq n
  have hlength := daysOfYear_cases year
  obtain ⟨hyear, -, hinYear, hday, -⟩ := @ofYearDay_parts year inYear (by omega)
  rw [hdate, dayNumber_eq hday, hyear, hinYear, ← hnumber, Int.add_sub_cancel]

/-- The day with the number of a day that exists is that day. -/
theorem ofDayNumber_dayNumber {d : Date} (h : d.exists? = true) : ofDayNumber d.dayNumber = d := by
  obtain ⟨year, inYear, hdate, hnumber, hbound⟩ := ofDayNumber_eq d.dayNumber
  obtain ⟨hd, hbound'⟩ := ofYearDay_dayOfYear h
  rw [dayNumber_eq ((exists?_iff d).mp h).2.2.1, Int.sub_add_cancel] at hnumber
  obtain ⟨hyear, hinYear⟩ := startOfYear_add_inj hbound' hbound hnumber
  rw [hdate, ← hyear, ← hinYear, hd]

/-! ## Numbers of years -/

/-- The number of the 1 January of a year, which has 306 days of the year from March before it. -/
def firstDayOfYear (year : Int) : Int := startOfYear (year - 1) + 306 - daysBeforeEpoch

/-- The days of January and February are the last of their year from March. -/
theorem dayOfYear_cases {d : Date} (h : d.exists? = true) :
    (d.yearFromMarch = d.year - 1 ∧ 306 ≤ d.dayOfYear) ∨
      (d.yearFromMarch = d.year ∧ d.dayOfYear < 306) := by
  obtain ⟨hfirst, hlast, hday, hend⟩ := (exists?_iff d).mp h
  have hlength := daysBeforeMonth_add_daysOfMonth hfirst hlast
  unfold dayOfYear
  by_cases hjanuary : d.month ≤ 2
  · refine .inl ⟨if_pos hjanuary, ?_⟩
    rw [show d.monthFromMarch = d.month + 9 from if_pos hjanuary]
    unfold daysBeforeMonth
    omega
  · refine .inr ⟨if_neg hjanuary, ?_⟩
    have hmonth : d.monthFromMarch = d.month - 3 := if_neg hjanuary
    rw [hmonth] at hlength ⊢
    unfold daysBeforeMonth at hlength ⊢
    omega

/-- A day is of a year or of a later one exactly if it does not come before 1 January of that
year. -/
theorem le_year_iff {d : Date} (h : d.exists? = true) (year : Int) :
    year ≤ d.year ↔ firstDayOfYear year ≤ d.dayNumber := by
  have hnumber := dayNumber_eq ((exists?_iff d).mp h).2.2.1
  have hinYear := (ofYearDay_dayOfYear h).2
  have hyear := daysOfYear_cases d.yearFromMarch
  unfold firstDayOfYear
  unfold startOfYear at hnumber ⊢
  rcases dayOfYear_cases h with ⟨hbefore, hlate⟩ | ⟨hsame, hearly⟩ <;> omega

/-! ## Seconds of days -/

/-- The calendar has every second of the days of four digits. -/
theorem inCalendar_of_year {d : Date} (hexists : d.exists? = true) (hlow : 0 ≤ d.year)
    (hhigh : d.year ≤ 9999) {second : Nat} (hsecond : second < 86400) :
    firstSecond ≤ d.dayNumber * secondsPerDay + second ∧
      d.dayNumber * secondsPerDay + second ≤ lastSecond := by
  have hnumber := dayNumber_eq ((exists?_iff d).mp hexists).2.2.1
  have hinYear := (ofYearDay_dayOfYear hexists).2
  have hlength := daysOfYear_cases d.yearFromMarch
  have hyear : d.yearFromMarch = d.year - 1 ∨ d.yearFromMarch = d.year := by
    unfold yearFromMarch
    split
    · exact .inl rfl
    · exact .inr rfl
  unfold startOfYear daysBeforeEpoch at hnumber
  unfold firstSecond lastSecond secondsPerDay
  omega

end CauseLists.Date

namespace CauseLists.Instant

/-- The instant of a second of a day is of that day, and that second of it. -/
theorem date_of_seconds {t : Instant} {d : Date} {second : Nat} (hexists : d.exists? = true)
    (hsecond : second < 86400) (h : t.seconds = d.dayNumber * secondsPerDay + second) :
    t.date = d ∧ t.secondOfDay = second := by
  unfold secondsPerDay at h
  have hday : t.seconds / 86400 = d.dayNumber := by omega
  constructor
  · show Date.ofDayNumber (t.seconds / 86400) = d
    rw [hday, Date.ofDayNumber_dayNumber hexists]
  · show (t.seconds % 86400).toNat = second
    omega

end CauseLists.Instant
