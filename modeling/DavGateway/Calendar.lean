/-!
# The civil calendar

Days are counted from 1 January 1970, dates are those of the proleptic Gregorian calendar. The two
directions, `Date.dayNumber` and `Date.ofDayNumber`, count in eras of 400 years that begin on
1 March, so that the leap day is the last day of its year.
-/

namespace DavGateway

/-- A day of the calendar: `month` counts from 1 to 12 and `day` from 1. -/
structure Date where
  year : Int
  month : Nat
  day : Nat
deriving DecidableEq, Repr

namespace Date

/-- Is it a year with a 29 February? -/
def isLeap (year : Int) : Bool := year % 4 == 0 && (year % 100 != 0 || year % 400 == 0)

/-- The number of days of a month. -/
def monthLength (year : Int) (month : Nat) : Nat :=
  match month with
  | 2 => if isLeap year then 29 else 28
  | 4 | 6 | 9 | 11 => 30
  | _ => 31

/-- Is it a day that exists? -/
def isValid (d : Date) : Bool :=
  1 ≤ d.month && d.month ≤ 12 && 1 ≤ d.day && d.day ≤ monthLength d.year d.month

/-- The days of an era of 400 years. -/
def eraDays : Int := 146097

/-- The days from 1 March of the year 0 to 1 January 1970. -/
def epochOffset : Int := 719468

/-- The number of a date, counted in days from 1 January 1970. -/
def dayNumber (d : Date) : Int :=
  let year := if d.month ≤ 2 then d.year - 1 else d.year
  let era := year / 400
  let yearOfEra := year % 400
  let monthFromMarch : Int := if d.month ≤ 2 then (d.month : Int) + 9 else (d.month : Int) - 3
  let dayOfYear := (153 * monthFromMarch + 2) / 5 + (d.day : Int) - 1
  let dayOfEra := yearOfEra * 365 + yearOfEra / 4 - yearOfEra / 100 + dayOfYear
  era * eraDays + dayOfEra - epochOffset

/-- The date with the given number. -/
def ofDayNumber (n : Int) : Date :=
  let shifted := n + epochOffset
  let era := shifted / eraDays
  let dayOfEra := shifted % eraDays
  let yearOfEra := (dayOfEra - dayOfEra / 1460 + dayOfEra / 36524 - dayOfEra / 146096) / 365
  let dayOfYear := dayOfEra - (365 * yearOfEra + yearOfEra / 4 - yearOfEra / 100)
  let monthFromMarch := (5 * dayOfYear + 2) / 153
  let day := dayOfYear - (153 * monthFromMarch + 2) / 5 + 1
  let month := if monthFromMarch < 10 then monthFromMarch + 3 else monthFromMarch - 9
  let year := yearOfEra + era * 400
  ⟨if month ≤ 2 then year + 1 else year, month.toNat, day.toNat⟩

/-- The day of the week of a day number, Sunday being 0. -/
def weekday (n : Int) : Nat := ((n + 4) % 7).toNat

/-- The first and the last year that dates of a time stamp can have. -/
def firstYear : Int := -262143

/-- The last year that dates of a time stamp can have. -/
def lastYear : Int := 262142

end Date

/-- The seconds of a day. -/
def secondsPerDay : Int := 86400

end DavGateway
