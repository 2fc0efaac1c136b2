import TableQuery.Database.Cell
import TableQuery.Text.Infix

/-!
# Column affinities

The declared type of a column does not restrict what it stores; it gives the column an affinity,
by which values are converted when they are stored and when they are compared with the column.

## Main definitions

* `Affinity`, `Affinity.ofDeclared`: the affinity that a declared type gives.
* `Affinity.store`: a value as a column stores it.
* `Datum`: a value and the affinity with which it is compared.
* `Datum.compare?`: comparing values, unless one is null.
-/

namespace TableQuery

open Numeral

/-- How a column converts values. -/
inductive Affinity where
  /-- Not at all. -/
  | blob
  /-- Numbers become texts. -/
  | text
  /-- Texts that denote numbers become numbers. -/
  | numeric
  /-- As before, and numbers become integers where that loses nothing. -/
  | integer
  /-- As `numeric`, and integers become floats. -/
  | real
  deriving DecidableEq, Repr

namespace Affinity

/-- Declared types by the names that they contain; the first that fits decides. -/
def names : List (String × Affinity) :=
  [("INT", integer), ("CHAR", text), ("CLOB", text), ("TEXT", text), ("BLOB", blob),
    ("REAL", real), ("FLOA", real), ("DOUB", real)]

/-- The affinity that a declared type gives, in ASCII letters of either case. -/
def ofDeclared (declared : String) : Affinity :=
  let upper := declared.toList.map Char.toUpper
  if upper.isEmpty then blob
  else ((names.find? fun entry => Text.occursIn entry.1.toList upper).map Prod.snd).getD numeric

/-- Whether values are numbers where they can be. -/
def isNumeric : Affinity → Bool
  | blob | text => false
  | numeric | integer | real => true

/-- The integer that a float equals, below the greatest and above the least integer. -/
def wholeNumber? (value : Binary64) : Option Int64 :=
  let (num, den) := value.signedRatio
  if value.isFinite && num % den = 0 && (num / den).natAbs < greatestInt64 then int64? (num / den)
  else none

/-- A number as an integer where that loses nothing. -/
def toInteger : Cell → Cell
  | .real value => ((wholeNumber? value).map Cell.integer).getD (.real value)
  | cell => cell

/-- A number as a float; zero has no sign. -/
def toReal : Cell → Cell
  | .integer value => .real (Binary64.ofInt value.toInt)
  | .real value =>
    .real (if value.isFinite && value.significand = 0 then Binary64.ofInt 0 else value)
  | cell => cell

/-- A value as a column stores it. -/
def store (affinity : Affinity) (cell : Cell) : Cell :=
  match affinity with
  | blob => cell
  | text => cell.toText
  | numeric => toInteger cell.toNumber
  | integer => toInteger cell.toNumber
  | real => toReal cell.toNumber

end Affinity

/-! ## Comparing -/

/-- A value and the affinity with which it is compared; only a column has one. -/
structure Datum where
  /-- The value. -/
  cell : Cell
  /-- The affinity. -/
  affinity : Option Affinity := none
  deriving DecidableEq, Repr

namespace Datum

/-- Whether a value is a text. -/
def isText (datum : Datum) : Bool :=
  match datum.cell with
  | .text _ => true
  | _ => false

/-- Whether one of two data is a text column and the other one no column. -/
def isTextColumnWithValue (left right : Datum) : Bool :=
  left.affinity = some .text && right.affinity.isNone ||
    left.affinity.isNone && right.affinity = some .text

/-- The values of two data, converted for a comparison: to numbers if one side is a numeric column,
to texts if one side is a text column without another column on the other side. -/
def adapt (left right : Datum) : Cell × Cell :=
  if left.affinity.any Affinity.isNumeric || right.affinity.any Affinity.isNumeric then
    (left.cell.toNumber, right.cell.toNumber)
  else if left.isTextColumnWithValue right && (left.isText || right.isText) then
    (left.cell.toText, right.cell.toText)
  else (left.cell, right.cell)

/-- The order of two values, if neither is null. -/
def compare? (left right : Datum) : Option Ordering :=
  if left.cell.isNull || right.cell.isNull then none
  else
    let (left, right) := left.adapt right
    some (left.compare right)

end Datum

end TableQuery
