import TableQuery.Time.Calendar

/-!
# Instants

A moment in Universal Time, to the nanosecond. A leap second is the second 59 of its minute with
a nanosecond count from 10⁹ on, so instants need no table of leap seconds.

## Main definitions

* `Instant`: seconds since 1970-01-01T00:00:00Z and nanoseconds within the second.
* `Instant.text`: the instant as `2020-01-01T00:00:00.5Z` would name it, with 0, 3, 6 or 9 digits
  of the second, the fewest that are exact.
-/

namespace TableQuery.Time

/-- The nanoseconds of a second. -/
def nanosPerSecond : Nat := 1000000000

/-- A moment in Universal Time. -/
structure Instant where
  /-- Seconds since 1970-01-01T00:00:00Z, not counting leap seconds. -/
  seconds : Int
  /-- Nanoseconds within the second; from 10⁹ on within the leap second that follows it. -/
  nanos : Nat
  /-- A leap second follows only the last second of a minute. -/
  isClock : nanos < nanosPerSecond ∨ nanos < 2 * nanosPerSecond ∧ seconds % 60 = 59
  deriving DecidableEq, Repr

namespace Instant

/-- The date of an instant. -/
def date (instant : Instant) : Date := Date.ofDayNumber (instant.seconds / 86400)

/-- The seconds since midnight of an instant. -/
def secondOfDay (instant : Instant) : Nat := (instant.seconds % 86400).toNat

/-- The digits of a fraction of a second after its point: none, three, six or nine. -/
def fractionChars (nanos : Nat) : List Char :=
  if nanos = 0 then []
  else if nanos % 1000000 = 0 then '.' :: padded 3 (nanos / 1000000)
  else if nanos % 1000 = 0 then '.' :: padded 6 (nanos / 1000)
  else '.' :: padded 9 nanos

/-- The time of day of an instant; a leap second is second 60. -/
def timeChars (instant : Instant) : List Char :=
  let ofDay := instant.secondOfDay
  padded 2 (ofDay / 3600) ++ ':' :: padded 2 (ofDay / 60 % 60) ++
    ':' :: padded 2 (ofDay % 60 + instant.nanos / nanosPerSecond) ++
    fractionChars (instant.nanos % nanosPerSecond)

/-- An instant in Universal Time: date, time and `Z`. -/
def chars (instant : Instant) : List Char :=
  instant.date.chars ++ 'T' :: instant.timeChars ++ ['Z']

/-- An instant in Universal Time as text. -/
def text (instant : Instant) : String := String.ofList instant.chars

end Instant

end TableQuery.Time
