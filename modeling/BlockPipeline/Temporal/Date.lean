import BlockPipeline.Number.Integer

set_option autoImplicit false

/-! # Dates

Dates of the Gregorian calendar, carried on in both directions. A day is counted from 1970-01-01. The
count goes by eras of four hundred years, and by years that begin in March, so that a leap day is the
last day of its year. -/

namespace BlockPipeline.Temporal

/-- A date. Months and days count from one; the year before year 1 is year 0. -/
structure Date where
  year : Int
  month : Nat
  day : Nat
  deriving DecidableEq, Repr

/-- Does the year have a leap day? -/
def isLeapYear (year : Int) : Bool := year % 4 = 0 ∧ (year % 100 ≠ 0 ∨ year % 400 = 0)

/-- The number of days of a month. -/
def daysInMonth (year : Int) (month : Nat) : Nat :=
  if month = 2 then if isLeapYear year then 29 else 28
  else if month = 4 ∨ month = 6 ∨ month = 9 ∨ month = 11 then 30
  else 31

namespace Date

/-- Is it a day of the calendar? -/
def isValid (date : Date) : Bool :=
  1 ≤ date.month ∧ date.month ≤ 12 ∧ 1 ≤ date.day ∧ date.day ≤ daysInMonth date.year date.month

/-- The days of an era. -/
def daysPerEra : Int := 146097

/-- The days from the first day of an era, which is in March, to 1970-01-01. -/
def epochOffset : Int := 719468

/-- The number of days since 1970-01-01. -/
def toDays (date : Date) : Int :=
  let year := if date.month ≤ 2 then date.year - 1 else date.year
  let era := year / 400
  let yearOfEra := year % 400
  let monthFromMarch : Int := ((date.month + 9) % 12 : Nat)
  let dayOfYear := (153 * monthFromMarch + 2) / 5 + date.day - 1
  let dayOfEra := yearOfEra * 365 + yearOfEra / 4 - yearOfEra / 100 + dayOfYear
  era * daysPerEra + dayOfEra - epochOffset

/-- The date that is so many days after 1970-01-01. -/
def ofDays (days : Int) : Date :=
  let shifted := days + epochOffset
  let era := shifted / daysPerEra
  let dayOfEra := shifted % daysPerEra
  let yearOfEra := (dayOfEra - dayOfEra / 1460 + dayOfEra / 36524 - dayOfEra / 146096) / 365
  let dayOfYear := dayOfEra - (365 * yearOfEra + yearOfEra / 4 - yearOfEra / 100)
  let monthFromMarch := (5 * dayOfYear + 2) / 153
  let day := dayOfYear - (153 * monthFromMarch + 2) / 5 + 1
  let month := if monthFromMarch < 10 then monthFromMarch + 3 else monthFromMarch - 9
  let year := yearOfEra + era * 400
  ⟨if month ≤ 2 then year + 1 else year, month.toNat, day.toNat⟩

/-- The first day that is shown: the first one of the year -9999. -/
def firstDay : Int := -4371587

/-- The last day that is shown: the last one of the year 9999. -/
def lastDay : Int := 2932896

/-- The text of a date. Years before year 0 have a sign and six digits. -/
def text (date : Date) : String :=
  let year := if date.year < 0 then '-' :: Text.padDigits 6 date.year.natAbs
    else Text.padDigits 4 date.year.natAbs
  String.ofList (year ++ '-' :: Text.padDigits 2 date.month ++ '-' :: Text.padDigits 2 date.day)

/-- The text of the date of a day, if it is one that is shown. -/
def dayText? (days : Int) : Option String :=
  if firstDay ≤ days ∧ days ≤ lastDay then some (ofDays days).text else none

end Date

end BlockPipeline.Temporal
