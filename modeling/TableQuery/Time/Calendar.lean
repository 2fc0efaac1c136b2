/-!
# The proleptic Gregorian calendar

Dates and day numbers, where day 0 is 1970-01-01. Years are counted from March in the arithmetic,
so that the leap day is the last day of its year, and the calendar repeats every 400 years, which
have 146097 days.

## Main definitions

* `Date`: a year, a month and a day of the month.
* `Date.Exists`: the calendar has this date.
* `Date.dayNumber`, `Date.ofDayNumber`: between dates and day numbers.
-/

namespace TableQuery.Time

/-- A date of the proleptic Gregorian calendar. Year 0 comes before year 1. -/
structure Date where
  /-- The year. -/
  year : Int
  /-- The month, from 1. -/
  month : Nat
  /-- The day of the month, from 1. -/
  day : Nat
  deriving DecidableEq, Repr

/-- Whether a year has a 29th of February. -/
def isLeapYear (year : Int) : Bool :=
  year % 4 = 0 && (year % 100 ≠ 0 || year % 400 = 0)

/-- The number of days of a month. -/
def daysInMonth (year : Int) (month : Nat) : Nat :=
  if month = 2 then (if isLeapYear year then 29 else 28)
  else if month = 4 || month = 6 || month = 9 || month = 11 then 30
  else 31

namespace Date

/-- The calendar has this date. -/
def Exists (date : Date) : Prop :=
  1 ≤ date.month ∧ date.month ≤ 12 ∧ 1 ≤ date.day ∧ date.day ≤ daysInMonth date.year date.month

instance (date : Date) : Decidable date.Exists := by
  unfold Exists
  infer_instance

/-- The days from the first of March of year 0 to the first of March of a year. -/
def daysBeforeMarch (year : Int) : Int := 365 * year + year / 4 - year / 100 + year / 400

/-- The days from the first of March to the first of a month, for months counted from March. -/
def daysFromMarch (month : Int) : Int := (153 * month + 2) / 5

/-- The number of days from 1970-01-01 to a date. A day past the end of its month counts on into
the next one. -/
def dayNumber (date : Date) : Int :=
  let year := if date.month ≤ 2 then date.year - 1 else date.year
  let month : Int := ((date.month + 9) % 12 : Nat)
  daysBeforeMarch year + daysFromMarch month + date.day - 1 - 719468

/-- The date on a given day. -/
def ofDayNumber (number : Int) : Date :=
  let shifted := number + 719468
  let day := shifted % 146097
  let year := (day - day / 1460 + day / 36524 - day / 146096) / 365
  let dayOfYear := day - (365 * year + year / 4 - year / 100)
  let month := (5 * dayOfYear + 2) / 153
  let calendarMonth := if month < 10 then month + 3 else month - 9
  let marchYear := year + 400 * (shifted / 146097)
  { year := if calendarMonth ≤ 2 then marchYear + 1 else marchYear
    month := calendarMonth.toNat
    day := (dayOfYear - daysFromMarch month + 1).toNat }

end Date

/-! ## Written dates -/

/-- A number with at least `width` digits. -/
def padded (width value : Nat) : List Char :=
  let digits := Nat.toDigits 10 value
  List.replicate (width - digits.length) '0' ++ digits

/-- A year: four digits from 0 to 9999, otherwise a sign and at least four digits. -/
def yearChars (year : Int) : List Char :=
  if 0 ≤ year ∧ year ≤ 9999 then padded 4 year.natAbs
  else (if year < 0 then '-' else '+') :: padded 4 year.natAbs

/-- A date as year, month and day with hyphens between them. -/
def Date.chars (date : Date) : List Char :=
  yearChars date.year ++ '-' :: padded 2 date.month ++ '-' :: padded 2 date.day

/-- A date as text. -/
def Date.text (date : Date) : String := String.ofList date.chars

end TableQuery.Time
