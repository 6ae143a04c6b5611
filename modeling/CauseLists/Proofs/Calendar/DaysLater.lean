-- Days later. Counting days from an instant goes through a span, whose range is told in
-- milliseconds, and through the day it leads to, whose range is told in years. Both bounds together
-- let through just the seconds of the calendar: a span that is too long leads out of the calendar
-- from everywhere in it.
import CauseLists.Proofs.Calendar.Days

namespace CauseLists

theorem Span.ofDays?_eq_some_iff {days : Int} {span : Span} :
    Span.ofDays? days = some span ↔ span.seconds = secondsPerDay * days := by
  obtain ⟨seconds, hrange⟩ := span
  have hmin : Text.minSigned64 = -9223372036854775808 := rfl
  have hmax : Text.maxSigned64 = 9223372036854775807 := rfl
  unfold ofDays? ofSeconds?
  rw [Int.mul_comm days]
  dsimp only
  split
  · split
    · rw [Option.some.injEq, Span.mk.injEq, eq_comm]
    · simp only [reduceCtorEq, false_iff]
      omega
  · simp only [reduceCtorEq, false_iff]
    omega

namespace Instant

/-- The second that comes so many days after an instant, in the calendar or not. -/
def secondsAfter (t : Instant) (days : Int) : Int := t.seconds + secondsPerDay * days

theorem secondsAfter_zero (t : Instant) : t.secondsAfter 0 = t.seconds := by
  simp [secondsAfter]

theorem secondsAfter_add {t u : Instant} {days : Int} (h : u.seconds = t.secondsAfter days)
    (more : Int) : u.secondsAfter more = t.secondsAfter (days + more) := by
  unfold secondsAfter at *
  rw [h, Int.mul_add, Int.add_assoc]

theorem secondsAfter_lt_iff (t : Instant) (days more : Int) :
    t.secondsAfter days < t.secondsAfter more ↔ days < more := by
  unfold secondsAfter secondsPerDay
  omega

/-! ## The calendar -/

/-- The day of a second, counted from 1 January 1970, is of a year of the calendar. -/
def InCalendar (seconds : Int) : Prop :=
  firstYear ≤ (Date.ofDayNumber (seconds / secondsPerDay)).year ∧
    (Date.ofDayNumber (seconds / secondsPerDay)).year ≤ lastYear

/-- The years of the calendar hold the seconds from its first to its last. -/
theorem inCalendar_iff (seconds : Int) :
    InCalendar seconds ↔ firstSecond ≤ seconds ∧ seconds ≤ lastSecond := by
  have hexists := Date.exists?_ofDayNumber (seconds / secondsPerDay)
  have hfirst := Date.le_year_iff hexists firstYear
  have hafter := Date.le_year_iff hexists (lastYear + 1)
  rw [Date.dayNumber_ofDayNumber] at hfirst hafter
  have hfirstDay : Date.firstDayOfYear firstYear = -96465292 := by decide
  have hafterDay : Date.firstDayOfYear (lastYear + 1) = 95026237 := by decide
  unfold InCalendar
  unfold firstSecond lastSecond
  unfold secondsPerDay at *
  omega

theorem ofSeconds?_eq_some_iff {seconds : Int} {t : Instant} :
    ofSeconds? seconds = some t ↔ t.seconds = seconds := by
  unfold ofSeconds?
  split
  · obtain ⟨s, hs⟩ := t
    simp [eq_comm]
  · rename_i hout
    simp only [reduceCtorEq, false_iff]
    rintro rfl
    exact hout t.inCalendar

theorem ofSeconds?_eq_none_iff {seconds : Int} :
    ofSeconds? seconds = none ↔ ¬InCalendar seconds := by
  rw [inCalendar_iff]
  unfold ofSeconds?
  split <;> simp_all

/-! ## Spans of days -/

/-- An instant is the second of its day. -/
theorem seconds_eq (t : Instant) :
    t.seconds = t.date.dayNumber * secondsPerDay + t.secondOfDay := by
  unfold date secondOfDay
  rw [Date.dayNumber_ofDayNumber]
  unfold secondsPerDay
  omega

/-- Moving the day and the second of the day is moving the instant. -/
theorem plus?_eq (t : Instant) (span : Span) :
    t.plus? span = ofSeconds? (t.seconds + span.seconds) := by
  have hseconds := t.seconds_eq
  -- what the second of the day runs over by is carried to the day
  have hsum : (t.date.dayNumber + (t.secondOfDay + span.seconds) / secondsPerDay) * secondsPerDay +
      (t.secondOfDay + span.seconds) % secondsPerDay = t.seconds + span.seconds := by
    unfold secondsPerDay at *
    omega
  have hday : t.date.dayNumber + (t.secondOfDay + span.seconds) / secondsPerDay =
      (t.seconds + span.seconds) / secondsPerDay := by
    unfold secondsPerDay at *
    omega
  unfold plus?
  simp only [Date.dayNumber_ofDayNumber]
  rw [hsum, hday]
  split
  · rfl
  · rename_i hout
    exact (ofSeconds?_eq_none_iff.mpr hout).symm

/-- A number of days that is no span leads out of the calendar from everywhere in it. -/
theorem not_inCalendar_of_ofDays? {days : Int} (h : Span.ofDays? days = none) (t : Instant) :
    ¬InCalendar (t.secondsAfter days) := by
  have hlong : ¬(-Text.maxSigned64 ≤ secondsPerDay * days * 1000 ∧
      secondsPerDay * days * 1000 ≤ Text.maxSigned64) := by
    intro hrange
    have hspan := Span.ofDays?_eq_some_iff.mpr (rfl : (Span.mk _ hrange).seconds = _)
    rw [h] at hspan
    cases hspan
  have hcalendar := t.inCalendar
  -- the calendar is far shorter than the longest span, so one of its ends is passed
  rw [inCalendar_iff]
  unfold secondsAfter
  unfold firstSecond lastSecond secondsPerDay Text.maxSigned64 at *
  omega

theorem plusDays?_eq (t : Instant) (days : Int) :
    t.plusDays? days = ofSeconds? (t.secondsAfter days) := by
  unfold plusDays?
  cases hspan : Span.ofDays? days with
  | none => exact (ofSeconds?_eq_none_iff.mpr (not_inCalendar_of_ofDays? hspan t)).symm
  | some span =>
    rw [Option.bind_some, plus?_eq, Span.ofDays?_eq_some_iff.mp hspan]
    rfl

theorem plusDays_eq_ok_iff {t u : Instant} {days : Int} :
    t.plusDays days = .ok u ↔ u.seconds = t.secondsAfter days := by
  rw [← ofSeconds?_eq_some_iff, ← plusDays?_eq]
  unfold plusDays
  cases t.plusDays? days <;> simp

theorem plusDays_eq_error_iff {t : Instant} {days : Int} {e : OutOfRange} :
    t.plusDays days = .error e ↔ e = ⟨t, days⟩ ∧ ¬InCalendar (t.secondsAfter days) := by
  rw [← ofSeconds?_eq_none_iff, ← plusDays?_eq]
  unfold plusDays
  cases t.plusDays? days <;> simp [eq_comm]

/-- The calendar has the second of an instant. -/
theorem inCalendar_seconds (t : Instant) : InCalendar t.seconds :=
  (inCalendar_iff t.seconds).mpr t.inCalendar

theorem exists_plusDays_iff {t : Instant} {days : Int} :
    (∃ u, t.plusDays days = .ok u) ↔ InCalendar (t.secondsAfter days) := by
  constructor
  · rintro ⟨u, hu⟩
    rw [← plusDays_eq_ok_iff.mp hu]
    exact u.inCalendar_seconds
  · intro hin
    exact ⟨⟨_, (inCalendar_iff _).mp hin⟩, plusDays_eq_ok_iff.mpr rfl⟩

/-- From one instant of the calendar to another there are fewer days than a signed word of 64 bits
can count, either way. -/
theorem days_bounds {t u : Instant} {days : Int} (h : u.seconds = t.secondsAfter days) :
    Text.minSigned64 < days ∧ days ≤ Text.maxSigned64 := by
  have ht := t.inCalendar
  have hu := u.inCalendar
  unfold secondsAfter at h
  unfold firstSecond lastSecond secondsPerDay at *
  unfold Text.minSigned64 Text.maxSigned64
  omega

/-- Days later it is the same time of another day. -/
theorem sameTime {t u : Instant} {days : Int} (h : u.seconds = t.secondsAfter days) :
    u.date = Date.ofDayNumber (t.date.dayNumber + days) ∧ u.secondOfDay = t.secondOfDay := by
  unfold date secondOfDay
  rw [Date.dayNumber_ofDayNumber, h]
  unfold secondsAfter secondsPerDay
  constructor
  · congr 1
    omega
  · omega

/-! ## Counting days -/

/-- So many days after an instant is the same time of the day that lies so many days later, exactly
if that day is of a year of the calendar, and otherwise an error that names the instant and the
days. So more days lead to a later instant, no day leads nowhere else, and days can be counted in
one go or one after the other, forwards or backwards, in numbers of 64 bits. -/
theorem days_are_counted_exactly_within_the_calendar (t : Instant) (days : Int) :
    ((∃ u, t.plusDays days = .ok u) ↔ InCalendar (t.secondsAfter days)) ∧
    (¬InCalendar (t.secondsAfter days) → t.plusDays days = .error ⟨t, days⟩) ∧
    t.plusDays 0 = .ok t ∧
    ∀ u, t.plusDays days = .ok u →
      u.seconds = t.secondsAfter days ∧
      u.date = Date.ofDayNumber (t.date.dayNumber + days) ∧ u.secondOfDay = t.secondOfDay ∧
      (∀ more v, t.plusDays more = .ok v → (u < v ↔ days < more)) ∧
      (∀ more v, u.plusDays more = .ok v → t.plusDays (days + more) = .ok v ∧
        Text.minSigned64 ≤ days + more ∧ days + more ≤ Text.maxSigned64) ∧
      u.plusDays (-days) = .ok t ∧
      Text.minSigned64 ≤ -days ∧ -days ≤ Text.maxSigned64 := by
  refine ⟨exists_plusDays_iff, ?_, ?_, ?_⟩
  · intro hout
    exact plusDays_eq_error_iff.mpr ⟨rfl, hout⟩
  · rw [plusDays_eq_ok_iff, secondsAfter_zero]
  · intro u hu
    rw [plusDays_eq_ok_iff] at hu
    obtain ⟨hdate, hsecond⟩ := sameTime hu
    obtain ⟨hlow, hhigh⟩ := days_bounds hu
    refine ⟨hu, hdate, hsecond, ?_, ?_, ?_, ?_⟩
    · intro more v hv
      rw [plusDays_eq_ok_iff] at hv
      show u.seconds < v.seconds ↔ _
      rw [hu, hv, secondsAfter_lt_iff]
    · intro more v hv
      rw [plusDays_eq_ok_iff] at hv
      have hsum : v.seconds = t.secondsAfter (days + more) := by
        rw [hv, secondsAfter_add hu]
      obtain ⟨hlow, hhigh⟩ := days_bounds hsum
      exact ⟨plusDays_eq_ok_iff.mpr hsum, Int.le_of_lt hlow, hhigh⟩
    · rw [plusDays_eq_ok_iff, secondsAfter_add hu, Int.add_right_neg, secondsAfter_zero]
    · unfold Text.minSigned64 Text.maxSigned64 at *
      omega

/-- The last second of the calendar. -/
def lastInstant : Instant := ⟨lastSecond, by decide⟩

/-- The calendar can be gone through backwards from its last second to its first day and forwards
again, but not one day further. -/
theorem the_whole_calendar_is_191491528_days_long :
    ∃ first : Instant, lastInstant.plusDays (-191491528) = .ok first ∧
      first.text = "-262143-01-01T23:59:59Z" ∧ first.plusDays 191491528 = .ok lastInstant ∧
      first.plusDays 191491529 = .error ⟨first, 191491529⟩ := by
  have hback : lastInstant.plusDays (-191491528) = .ok ⟨-8334601142401, by decide⟩ :=
    plusDays_eq_ok_iff.mpr (by decide)
  obtain ⟨-, -, -, hlater⟩ := days_are_counted_exactly_within_the_calendar lastInstant (-191491528)
  obtain ⟨-, -, -, -, -, hforth, -⟩ := hlater _ hback
  refine ⟨_, hback, by decide +kernel, hforth, ?_⟩
  refine (days_are_counted_exactly_within_the_calendar _ _).2.1 ?_
  rw [inCalendar_iff]
  decide

end Instant

end CauseLists
