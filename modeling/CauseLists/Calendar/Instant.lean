-- Instants: whole seconds of universal time. An instant lies within the calendar, which runs from
-- 1 January of the year -262143 to 31 December of the year 262142; the bounds are part of the
-- type, so whatever moves an instant has to say what happens at the edge.
import CauseLists.Calendar.Date
import CauseLists.Text.Numeral

namespace CauseLists

/-- The seconds of one day. -/
def secondsPerDay : Int := 86400

/-- The first second of the calendar, counted from 1 January 1970. -/
def firstSecond : Int := -8334601228800

/-- The last second of the calendar, counted from 1 January 1970. -/
def lastSecond : Int := 8210266876799

/-- The first year of the calendar. -/
def firstYear : Int := -262143

/-- The last year of the calendar. -/
def lastYear : Int := 262142

/-- A length of time in whole seconds, forwards or backwards. In milliseconds it fits in a signed
word of 64 bits, and so does its opposite. -/
structure Span where
  seconds : Int
  inRange : -Text.maxSigned64 ≤ seconds * 1000 ∧ seconds * 1000 ≤ Text.maxSigned64
deriving DecidableEq, Repr

namespace Span

/-- The span of so many seconds, if there is one. -/
def ofSeconds? (seconds : Int) : Option Span :=
  if h : -Text.maxSigned64 ≤ seconds * 1000 ∧ seconds * 1000 ≤ Text.maxSigned64 then
    some ⟨seconds, h⟩
  else none

/-- The span of so many days, if there is one. Its seconds are counted in a signed word of
64 bits. -/
def ofDays? (days : Int) : Option Span :=
  let seconds := days * secondsPerDay
  if Text.minSigned64 ≤ seconds ∧ seconds ≤ Text.maxSigned64 then ofSeconds? seconds else none

end Span

/-- A whole second of universal time. -/
structure Instant where
  /-- Seconds from 1 January 1970; the days of leap seconds are as long as any other. -/
  seconds : Int
  inCalendar : firstSecond ≤ seconds ∧ seconds ≤ lastSecond
deriving DecidableEq, Repr

namespace Instant

/-- The start of 1970. -/
def epoch : Instant := ⟨0, by decide⟩

instance : Inhabited Instant := ⟨epoch⟩

/-- The instant so many seconds from the start of 1970, if the calendar has it. -/
def ofSeconds? (seconds : Int) : Option Instant :=
  if h : firstSecond ≤ seconds ∧ seconds ≤ lastSecond then some ⟨seconds, h⟩ else none

instance : LT Instant := ⟨fun a b => a.seconds < b.seconds⟩
instance : LE Instant := ⟨fun a b => a.seconds ≤ b.seconds⟩

instance (a b : Instant) : Decidable (a < b) :=
  inferInstanceAs (Decidable (a.seconds < b.seconds))
instance (a b : Instant) : Decidable (a ≤ b) :=
  inferInstanceAs (Decidable (a.seconds ≤ b.seconds))

/-- The earlier of two instants. -/
def earlier (a b : Instant) : Instant := if a ≤ b then a else b

/-- The later of two instants. -/
def later (a b : Instant) : Instant := if a ≤ b then b else a

/-- The order of two instants. -/
def order (a b : Instant) : Ordering := compare a.seconds b.seconds

/-- The day of an instant. -/
def date (t : Instant) : Date := Date.ofDayNumber (t.seconds / secondsPerDay)

/-- The seconds since that day began. -/
def secondOfDay (t : Instant) : Nat := (t.seconds % secondsPerDay).toNat

/-- The instant a span after an instant, if the calendar has its day. The span is added to the
second of the day; the whole days of the sum move the day, and what is left of it is the new second
of the day. -/
def plus? (t : Instant) (span : Span) : Option Instant :=
  let second := t.secondOfDay + span.seconds
  let date := Date.ofDayNumber (t.date.dayNumber + second / secondsPerDay)
  if firstYear ≤ date.year ∧ date.year ≤ lastYear then
    ofSeconds? (date.dayNumber * secondsPerDay + second % secondsPerDay)
  else none

/-- The same time of day so many days later, or earlier below zero, if there is such a span and
the calendar has the day to which it leads. -/
def plusDays? (t : Instant) (days : Int) : Option Instant := (Span.ofDays? days).bind t.plus?

end Instant

/-- So many days from an instant lead out of the calendar. -/
structure OutOfRange where
  base : Instant
  days : Int
deriving DecidableEq, Repr

/-- The same time of day so many days later, or why there is none. -/
def Instant.plusDays (t : Instant) (days : Int) : Except OutOfRange Instant :=
  match t.plusDays? days with
  | some later => .ok later
  | none => .error ⟨t, days⟩

/-- A year in four digits, or with a sign if it lies outside the years 0 to 9999. -/
def yearText (year : Int) : String :=
  if 0 ≤ year && year ≤ 9999 then Text.padded 4 year.toNat
  else (if year < 0 then "-" else "+") ++ Text.padded 4 year.natAbs

/-- A day as year, month and day. -/
def Date.text (d : Date) : String :=
  yearText d.year ++ "-" ++ Text.padded 2 d.month ++ "-" ++ Text.padded 2 d.day

/-- A second of a day as hour, minute and second. -/
def timeText (secondOfDay : Nat) : String :=
  Text.padded 2 (secondOfDay / 3600) ++ ":" ++ Text.padded 2 (secondOfDay / 60 % 60) ++ ":" ++
    Text.padded 2 (secondOfDay % 60)

/-- An instant as day and time of day in universal time. -/
def Instant.text (t : Instant) : String := t.date.text ++ "T" ++ timeText t.secondOfDay ++ "Z"

end CauseLists
