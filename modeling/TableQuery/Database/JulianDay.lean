import TableQuery.Database.Cell
import TableQuery.Database.Like
import TableQuery.Time.Rfc3339

/-!
# Julian days

The moment that a stored value denotes, counted in milliseconds from noon of the 24th of November
of year -4713, which is day zero. A text is a date, a time and a time zone, the last two of which
may be missing; without a zone it is Universal Time, and a time without a date is one of the first
day of the year 2000. A number counts days. The count reaches from zero to the end of year 9999.

## Main definitions

* `JulianDay.ofChars?`: the moment that characters denote.
* `JulianDay.ofCell?`: the moment that a value denotes.
* `JulianDay.toDays`: a moment as a number of days.
-/

namespace TableQuery.JulianDay

open Time Numeral

/-- The milliseconds of a day. -/
def dayLength : Int := 86400000

/-- The moment at which 1970-01-01 starts. -/
def epoch : Int := 210866760000000

/-- The last moment. -/
def last : Int := 464269060799999

/-- A moment, if it is in range. -/
def inRange? (moment : Int) : Option Int :=
  if 0 ≤ moment ∧ moment ≤ last then some moment else none

/-- The milliseconds of a fraction of a second by its digits, a half rounded up. -/
def millisOfDigits (digits : List Char) : Nat :=
  let scale := Nat.pow 10 digits.length
  (2000 * digitsValue digits + scale) / (2 * scale)

/-- Reads hours and minutes with a colon between them. -/
def takeHourMinute (greatestHour : Nat) (chars : List Char) : Option (Nat × List Char) := do
  let (hour, chars) ← takeNumber 2 0 chars
  let chars ← takeChar (· = ':') chars
  let (minute, chars) ← takeNumber 2 0 chars
  if hour ≤ greatestHour && minute ≤ 59 then some (hour * 60 + minute, chars) else none

/-- Reads the milliseconds after a minute, if a colon starts them. -/
def takeSeconds : List Char → Option (Nat × List Char)
  | ':' :: chars => do
    let (second, chars) ← takeNumber 2 0 chars
    if 59 < second then none
    match chars with
    | '.' :: digits =>
      if (digits.takeWhile Char.isDigit).isEmpty then some (second * 1000, chars)
      else some (second * 1000 + millisOfDigits (digits.takeWhile Char.isDigit),
        digits.dropWhile Char.isDigit)
    | chars => some (second * 1000, chars)
  | chars => some (0, chars)

/-- Reads a time zone up to the end and gives the minutes by which its clock is ahead. -/
def zoneOf? (chars : List Char) : Option Int :=
  match chars.dropWhile Cell.isSpace with
  | [] => some 0
  | sign :: rest => do
    let (ahead, rest) ←
      if sign = 'Z' || sign = 'z' then some ((0 : Int), rest)
      else if sign = '+' || sign = '-' then do
        let (minutes, rest) ← takeHourMinute 14 rest
        some (if sign = '+' then (minutes : Int) else -(minutes : Int), rest)
      else none
    if (rest.dropWhile Cell.isSpace).isEmpty then some ahead else none

/-- The milliseconds from midnight of Universal Time that a time and its zone denote. -/
def timeOf? (chars : List Char) : Option Int := do
  let (minutes, chars) ← takeHourMinute 24 chars
  let (millis, chars) ← takeSeconds chars
  let ahead ← zoneOf? chars
  return (minutes - ahead) * 60000 + millis

/-- The moment at a time of a date. -/
def atDate? (date : Date) (time : Int) : Option Int :=
  inRange? (epoch + date.dayNumber * dayLength + time)

/-- The moment that a date, a time and a zone denote; without a time it is midnight. -/
def ofDateTime? (chars : List Char) : Option Int := do
  let negative := chars.head? = some '-'
  let (date, chars) ← takeDate (if negative then chars.drop 1 else chars)
  let chars := chars.dropWhile fun c => c = 'T' || Cell.isSpace c
  let time ← if chars.isEmpty then some 0 else timeOf? chars
  if 1 ≤ date.month && date.month ≤ 12 && 1 ≤ date.day && date.day ≤ 31 then
    atDate? (if negative then { date with year := -date.year } else date) time
  else none

/-- The moment that a time and a zone denote. -/
def ofTime? (chars : List Char) : Option Int := do
  atDate? ⟨2000, 1, 1⟩ (← timeOf? chars)

/-- The moment that characters denote. -/
def ofChars? (chars : List Char) : Option Int :=
  (ofDateTime? chars).orElse fun _ => ofTime? chars

/-- The moment that a number of days denotes. -/
def ofDays? (days : Binary64) : Option Int :=
  if days.isFinite then
    let (num, den) := days.signedRatio
    if 0 ≤ num then inRange? ((2 * num * dayLength + den) / (2 * den)) else none
  else none

/-- The moment that a number denotes. -/
def ofNumber? : Cell → Option Int
  | .integer value => ofDays? (Binary64.ofInt value.toInt)
  | .real value => ofDays? value
  | _ => none

/-- The moment that a text denotes. -/
def ofText? (text : String) : Option Int :=
  (ofChars? (untilNull text)).orElse fun _ => ofNumber? (Cell.text text).toNumber

/-- The moment that a value denotes; octets are read as a text. -/
def ofCell? : Cell → Option Int
  | .null => none
  | .integer value => ofNumber? (.integer value)
  | .real value => ofNumber? (.real value)
  | .text value => ofText? value
  | .blob octets => ofText? (Text.Utf8.decodeLossy octets)

/-- A moment as the nearest number of days. -/
def toDays (moment : Int) : Binary64 := .ofRatio false moment.toNat dayLength.toNat

end TableQuery.JulianDay
