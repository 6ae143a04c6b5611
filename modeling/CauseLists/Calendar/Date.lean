-- Days of the Gregorian calendar, run forwards and backwards without end. A day is counted from
-- the first of March of the year 0, so that the leap day closes a year, and the count falls into
-- spans of 400, 100, 4 and 1 years.

namespace CauseLists

/-- A day of the calendar, as it is written. -/
structure Date where
  year : Int
  month : Nat
  day : Nat
deriving DecidableEq, Repr, Inhabited

namespace Date

/-- A year with a 29 February. -/
def isLeapYear (year : Int) : Bool := year % 4 == 0 && (year % 100 != 0 || year % 400 == 0)

/-- How many days a month has. -/
def daysOfMonth (year : Int) (month : Nat) : Nat :=
  if month == 2 then (if isLeapYear year then 29 else 28)
  else if month == 4 || month == 6 || month == 9 || month == 11 then 30
  else 31

/-- There is such a day. -/
def exists? (d : Date) : Bool :=
  1 ≤ d.month && d.month ≤ 12 && 1 ≤ d.day && d.day ≤ daysOfMonth d.year d.month

/-- The year that began on the last first of March. -/
def yearFromMarch (d : Date) : Int := if d.month ≤ 2 then d.year - 1 else d.year

/-- How many months lie between that first of March and the month of a day. -/
def monthFromMarch (d : Date) : Nat := if d.month ≤ 2 then d.month + 9 else d.month - 3

/-- The days before a month in a year that begins in March: of every five months in a row three
have 31 days. -/
def daysBeforeMonth (monthFromMarch : Nat) : Nat := (153 * monthFromMarch + 2) / 5

/-- The days from 1 March of the year 0 to 1 January 1970. -/
def daysBeforeEpoch : Int := 719468

/-- The days from 1 January 1970 to a day. -/
def dayNumber (d : Date) : Int :=
  let y := d.yearFromMarch
  365 * y + y / 4 - y / 100 + y / 400 + daysBeforeMonth d.monthFromMarch + (d.day - 1 : Int) -
    daysBeforeEpoch

/-- The day that lies a number of days after 1 January 1970. The last day of a span of 400 years,
and of a span of 4 years, belongs to its last part. -/
def ofDayNumber (n : Int) : Date :=
  let days := n + daysBeforeEpoch
  let inEra := (days % 146097).toNat
  let century := min (inEra / 36524) 3
  let inCentury := inEra - 36524 * century
  let inFour := inCentury % 1461
  let yearOfFour := min (inFour / 365) 3
  let inYear := inFour - 365 * yearOfFour
  let year : Int :=
    400 * (days / 146097) + 100 * century + 4 * (inCentury / 1461 : Nat) + yearOfFour
  let month := (5 * inYear + 2) / 153
  let day := inYear - daysBeforeMonth month + 1
  if month < 10 then ⟨year, month + 3, day⟩ else ⟨year + 1, month - 9, day⟩

end Date

end CauseLists
