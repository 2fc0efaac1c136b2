import TableQuery.Text.Blank
import TableQuery.Time.Instant

/-!
# Written instants

Reading dates and times written as `2020-09-19T23:10:35.123+02:00`. The grammar is strict: two
digits everywhere but in the year, a time zone always, nothing after it. Blank characters around
the text are ignored, and digits of the second past the ninth are dropped.

## Main definitions

* `takeNumber`, `takeChar`: the pieces that date formats are made of.
* `takeDate`, `takeTime`, `takeFraction`, `takeOffset`: the parts of a written instant.
* `instantOfChars?`, `Instant.ofText?`: the instant that a text denotes.
-/

namespace TableQuery.Time

/-! ## Pieces -/

/-- Reads exactly `count` digits after `value` and gives the number they continue and the rest. -/
def takeNumber : Nat → Nat → List Char → Option (Nat × List Char)
  | 0, value, chars => some (value, chars)
  | _ + 1, _, [] => none
  | count + 1, value, c :: rest =>
    if c.isDigit then takeNumber count (value * 10 + (c.toNat - '0'.toNat)) rest else none

/-- Reads one character out of a class and gives the rest. -/
def takeChar (allowed : Char → Bool) : List Char → Option (List Char)
  | [] => none
  | c :: rest => if allowed c then some rest else none

/-- Reads a year of four digits, a month and a day with hyphens between them. -/
def takeDate (chars : List Char) : Option (Date × List Char) := do
  let (year, chars) ← takeNumber 4 0 chars
  let chars ← takeChar (· = '-') chars
  let (month, chars) ← takeNumber 2 0 chars
  let chars ← takeChar (· = '-') chars
  let (day, chars) ← takeNumber 2 0 chars
  return (⟨year, month, day⟩, chars)

/-- The nanoseconds of the digits after a decimal point: nine digits count, missing ones are
zero. -/
def nanosOfDigits (digits : List Char) : Nat :=
  let kept := digits.take 9
  let value := kept.foldl (fun value c => value * 10 + (c.toNat - '0'.toNat)) 0
  value * Nat.pow 10 (9 - kept.length)

/-- Reads a fraction of a second, if a point starts one; a point needs a digit after it. -/
def takeFraction : List Char → Option (Nat × List Char)
  | '.' :: chars =>
    let digits := chars.takeWhile Char.isDigit
    if digits.isEmpty then none
    else some (nanosOfDigits digits, chars.dropWhile Char.isDigit)
  | chars => some (0, chars)

/-- Reads a time zone and gives the seconds by which its clock is ahead of Universal Time. -/
def takeOffset : List Char → Option (Int × List Char)
  | [] => none
  | sign :: chars =>
    if sign = 'Z' || sign = 'z' then some (0, chars)
    else if sign = '+' || sign = '-' || sign = '\u2212' then do
      let (hours, chars) ← takeNumber 2 0 chars
      let chars ← takeChar (· = ':') chars
      let (minutes, chars) ← takeNumber 2 0 chars
      if hours ≤ 23 && minutes ≤ 59 then
        let ahead : Int := hours * 3600 + minutes * 60
        some (if sign = '+' then ahead else -ahead, chars)
      else none
    else none

/-! ## Instants -/

/-- The instant at a second of a day by a clock that is ahead of Universal Time, with the second
60 of any minute read as a leap second. -/
def instantOfClock? (date : Date) (hour minute second nanos : Nat) (ahead : Int) :
    Option Instant :=
  let whole := if second = 60 then 59 else second
  let seconds : Int := date.dayNumber * 86400 + hour * 3600 + minute * 60 + whole - ahead
  let nanos := if second = 60 then nanos + nanosPerSecond else nanos
  if isClock : nanos < nanosPerSecond ∨ nanos < 2 * nanosPerSecond ∧ seconds % 60 = 59 then
    some ⟨seconds, nanos, isClock⟩
  else none

/-- The instant that characters denote. -/
def instantOfChars? (chars : List Char) : Option Instant := do
  let (date, chars) ← takeDate chars
  let chars ← takeChar (fun c => c = 'T' || c = 't' || c = ' ') chars
  let (hour, chars) ← takeNumber 2 0 chars
  let chars ← takeChar (· = ':') chars
  let (minute, chars) ← takeNumber 2 0 chars
  let chars ← takeChar (· = ':') chars
  let (second, chars) ← takeNumber 2 0 chars
  let (nanos, chars) ← takeFraction chars
  let (ahead, chars) ← takeOffset chars
  if chars.isEmpty && decide date.Exists && hour ≤ 23 && minute ≤ 59 && second ≤ 60 then
    instantOfClock? date hour minute second nanos ahead
  else none

/-- The instant that a text denotes, blank characters around it ignored. -/
def Instant.ofText? (text : String) : Option Instant :=
  instantOfChars? (Text.strip text.toList)

end TableQuery.Time
