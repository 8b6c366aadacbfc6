import WordPackage.Text.Digits

/-!
# Instants and calendar dates

Instants are counted in seconds from the start of 1970, and dates are those of
the proleptic Gregorian calendar in universal time. Years run from March, so
that the day added in leap years is the last of its year: a cycle of 400 years
has 146097 days, and the months from March on start on days `(153 m + 2) / 5`.
-/

namespace WordPackage

/-- A date of the proleptic Gregorian calendar. -/
structure CivilDate where
  /-- The year; the year before 1 is 0. -/
  year : Int
  month : Nat
  day : Nat
  deriving DecidableEq, Repr

namespace CivilDate

/-- Whether a year has a day in February more than others. -/
def isLeapYear (year : Int) : Bool :=
  year % 4 = 0 && (year % 100 ≠ 0 || year % 400 = 0)

/-- Number of days of a month. -/
def daysInMonth (year : Int) (month : Nat) : Nat :=
  if month = 2 then (if isLeapYear year then 29 else 28)
  else if month = 4 ∨ month = 6 ∨ month = 9 ∨ month = 11 then 30
  else 31

/-- Days from the first of March of year 0 to the start of 1970. -/
def daysBefore1970 : Int := 719468

/-- The date that is a number of days after the start of 1970. -/
def ofDays (days : Int) : CivilDate :=
  let sinceMarch := days + daysBefore1970
  let cycle := sinceMarch / 146097
  let dayOfCycle := (sinceMarch % 146097).toNat
  let yearOfCycle :=
    (dayOfCycle - dayOfCycle / 1460 + dayOfCycle / 36524 - dayOfCycle / 146096) / 365
  let dayOfYear := dayOfCycle - (365 * yearOfCycle + yearOfCycle / 4 - yearOfCycle / 100)
  let monthFromMarch := (5 * dayOfYear + 2) / 153
  let day := dayOfYear - (153 * monthFromMarch + 2) / 5 + 1
  let month := if monthFromMarch < 10 then monthFromMarch + 3 else monthFromMarch - 9
  let year := cycle * 400 + yearOfCycle
  { year := if month ≤ 2 then year + 1 else year, month, day }

/-- The year as it is written: four digits, and a sign with at least four digits
outside the years 0 to 9999. -/
def yearText (year : Int) : List Char :=
  if 0 ≤ year ∧ year ≤ 9999 then Text.padded 4 year.toNat
  else (if year < 0 then '-' else '+') :: Text.padded 4 year.natAbs

/-- A date as it is written. -/
def text (date : CivilDate) : List Char :=
  yearText date.year ++ '-' :: Text.padded 2 date.month ++ '-' :: Text.padded 2 date.day

end CivilDate

/-- An instant in universal time. -/
structure Instant where
  seconds : Int
  /-- Nanoseconds after those seconds. From one thousand million on, the instant
  lies in a leap second that follows the second. -/
  nanoseconds : Nat := 0
  deriving DecidableEq, Repr

namespace Instant

/-- An instant as date and time with a precision of one second. -/
def w3cdtf (instant : Instant) : String :=
  let secondOfDay := (instant.seconds % 86400).toNat
  let date := CivilDate.ofDays (instant.seconds / 86400)
  .ofList <|
    date.text ++ 'T' :: Text.padded 2 (secondOfDay / 3600)
      ++ ':' :: Text.padded 2 (secondOfDay / 60 % 60)
      ++ ':' :: Text.padded 2 (secondOfDay % 60 + instant.nanoseconds / 1000000000) ++ ['Z']

end Instant

end WordPackage
