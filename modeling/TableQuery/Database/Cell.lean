import TableQuery.Json.Reader
import TableQuery.Numeral.Decimal
import TableQuery.Numeral.Integer
import TableQuery.Operand
import TableQuery.Text.Utf8

/-!
# Cells

The values that a database stores and compares. Values of different kinds have an order too: null
comes first, then numbers by value, then texts, then octets.

## Main definitions

* `Cell`: a stored value.
* `Cell.ofOperand`: how an operand is bound.
* `Cell.text?`, `Cell.number?`: the text of a number, and the number of a text.
* `Cell.compare`: the order of all cells.
-/

namespace TableQuery

open Numeral

/-- A value in a database. -/
inductive Cell where
  /-- No value. -/
  | null
  /-- A 64-bit signed integer. -/
  | integer (value : Int64)
  /-- A float that is a number or an infinity. -/
  | real (value : Binary64)
  /-- A text. -/
  | text (value : String)
  /-- Octets. -/
  | blob (octets : List UInt8)
  deriving DecidableEq, Repr

namespace Cell

/-- The value that is bound for an operand: truth values are 0 and 1, instants are their text. -/
def ofOperand : Operand → Cell
  | .null => null
  | .boolean value => integer (if value then 1 else 0)
  | .integer value => integer value
  | .float value => if value.isNaN then null else real value
  | .text value => text value
  | .timestamp value => text value.text

/-- Whether a cell has no value. -/
def isNull : Cell → Bool
  | null => true
  | _ => false

/-! ## Texts of cells -/

/-- Floats are written positionally from 10⁻⁴ to below 10¹⁵ and with an exponent elsewhere, such as
`1.0e-05`. -/
def realLayout : DecimalLayout := ⟨-4, 14, true, 2⟩

/-- The text of a float: fifteen digits at most, and no sign at zero. -/
def realText (value : Binary64) : String :=
  if value.isFinite && value.significand = 0 then "0.0"
  else if value.isFinite then value.render realLayout (Decimal.significant 15)
  else if value.isNegative then "-Inf" else "Inf"

/-- The text of a cell that has a value. -/
def text? : Cell → Option String
  | null => none
  | integer value => some (toString value.toInt)
  | real value => some (realText value)
  | text value => some value
  | blob octets => some (Text.Utf8.decodeLossy octets)

/-- The cell with its text changed; null stays null. -/
def mapText (change : String → String) (cell : Cell) : Cell :=
  match cell.text? with
  | some value => text (change value)
  | none => null

/-! ## Numbers of texts -/

/-- Whether a character may stand around a number. -/
def isSpace (c : Char) : Bool := c = ' ' || ('\t' ≤ c && c ≤ '\r')

/-- Characters without spaces at either end. -/
def stripSpace (chars : List Char) : List Char :=
  ((chars.dropWhile isSpace).reverse.dropWhile isSpace).reverse

/-- The number of digits before and after a point, and of an exponent. -/
def numberOfParts (negative : Bool) (whole : List Char) (fraction : Option (List Char))
    (exponent : Option Int) : Cell :=
  let digits := digitsValue (whole ++ fraction.getD [])
  let value : Int := if negative then -digits else digits
  let float := Binary64.ofDecimal negative digits (exponent.getD 0 - (fraction.getD []).length)
  if fraction.isNone && exponent.isNone then ((int64? value).map integer).getD (real float)
  else real float

/-- The number that characters denote: a sign, digits with a point, and an exponent. -/
def numberOfChars? (chars : List Char) : Option Cell := do
  let chars := stripSpace chars
  let negative := chars.head? = some '-'
  let chars := if negative || chars.head? = some '+' then chars.drop 1 else chars
  let whole := chars.takeWhile Char.isDigit
  let (fraction, chars) := match chars.dropWhile Char.isDigit with
    | '.' :: chars => (some (chars.takeWhile Char.isDigit), chars.dropWhile Char.isDigit)
    | chars => (none, chars)
  let (exponent, chars) ← Json.readExponent chars
  if whole.isEmpty && (fraction.getD []).isEmpty || !chars.isEmpty then none
  else some (numberOfParts negative whole fraction exponent)

/-- A text that denotes a number as that number; anything else as it is. -/
def toNumber : Cell → Cell
  | text value => (numberOfChars? value.toList).getD (text value)
  | cell => cell

/-- A number as its text; anything else as it is. -/
def toText : Cell → Cell
  | integer value => text (toString value.toInt)
  | real value => text (realText value)
  | cell => cell

/-! ## Order -/

/-- The place of a cell's kind among all kinds. -/
def rank : Cell → Nat
  | null => 0
  | integer _ => 1
  | real _ => 1
  | text _ => 2
  | blob _ => 3

/-- The order of cells: by kind, and within a kind by value. -/
def compare : Cell → Cell → Ordering
  | integer a, integer b => Ord.compare a.toInt b.toInt
  | integer a, real b => (b.compareInt a.toInt).swap
  | real a, integer b => a.compareInt b.toInt
  | real a, real b => a.compare b
  | text a, text b => Ord.compare a b
  | blob a, blob b => Ord.compare (a.map UInt8.toNat) (b.map UInt8.toNat)
  | a, b => Ord.compare a.rank b.rank

/-! ## Out of the database -/

/-- A cell as a JSON value: octets are read as text, and an infinity is null. -/
def toJson : Cell → Json
  | null => .null
  | integer value => .ofInt64 value
  | real value => if value.isFinite then .float value else .null
  | text value => .text value
  | blob octets => .text (Text.Utf8.decodeLossy octets)

end Cell

end TableQuery
