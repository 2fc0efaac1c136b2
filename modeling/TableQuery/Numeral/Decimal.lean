import TableQuery.Numeral.Binary64

/-!
# Decimal text of floats

A finite float is written in decimal in two steps. First its digits are chosen: the fewest that
read back as the same float, or a fixed number of significant ones. Then they are laid out,
positionally when the exponent is moderate and with an exponent otherwise.

## Main definitions

* `Decimal`: significant digits and the exponent of the first of them.
* `Decimal.shortest`, `Decimal.significant`: the two ways to choose digits.
* `DecimalLayout`, `Decimal.render`: how digits are laid out.
-/

namespace TableQuery.Numeral

/-- A positive decimal `d₀.d₁d₂… · 10 ^ exponent`. -/
structure Decimal where
  /-- The significant digits, the last of them not zero. -/
  digits : List Char
  /-- The power of ten of the first digit. -/
  exponent : Int
  deriving DecidableEq, Repr

/-- How digits are laid out. -/
structure DecimalLayout where
  /-- The least exponent that is written positionally. -/
  least : Int
  /-- The greatest exponent that is written positionally. -/
  greatest : Int
  /-- Whether a single digit before an exponent is followed by `.0`. -/
  keepsPoint : Bool
  /-- The least number of digits of an exponent. -/
  exponentDigits : Nat

namespace Decimal

/-! ## Choosing digits -/

/-- The greatest `d` with `10 ^ d` not above a positive ratio. -/
def leadingExponent (num den : Nat) : Int :=
  if den ≤ num then (Nat.toDigits 10 (num / den)).length - 1
  else -((Nat.toDigits 10 ((den + num - 1) / num - 1)).length : Int)

/-- A ratio divided by a power of ten. -/
def shiftRatio (num den : Nat) (exponent : Int) : Nat × Nat :=
  if 0 ≤ exponent then (num, den * Nat.pow 10 exponent.toNat)
  else (num * Nat.pow 10 (-exponent).toNat, den)

/-- The decimal `value · 10 ^ exponent`, without trailing zeros. -/
def ofScaled (value : Nat) (exponent : Int) : Decimal :=
  let digits := Nat.toDigits 10 value
  ⟨(digits.reverse.dropWhile (· = '0')).reverse, exponent + digits.length - 1⟩

/-- The decimal of `count` digits that is nearest to the magnitude of a float among those that read
back as it, if there is one; of two equally near the even one. -/
def withDigits? (x : Binary64) (count : Nat) : Option Decimal :=
  let magnitude := x.ratio
  let exponent := leadingExponent magnitude.1 magnitude.2 - count + 1
  let scaled := shiftRatio magnitude.1 magnitude.2 exponent
  let below := scaled.1 / scaled.2
  let readsBack (value : Nat) : Bool :=
    value ≠ 0 && Binary64.ofDecimal x.isNegative value exponent = x
  let nearest := divNearestEven scaled.1 scaled.2
  if readsBack nearest then some (ofScaled nearest exponent)
  else if readsBack below then some (ofScaled below exponent)
  else if readsBack (below + 1) then some (ofScaled (below + 1) exponent)
  else none

/-- The fewest digits that read back as a finite float other than zero. Seventeen always do. -/
def shortest (x : Binary64) : Decimal :=
  ((List.range 17).findSome? fun count => withDigits? x (count + 1)).getD ⟨['0'], 0⟩

/-- The nearest decimal of at most `count` digits to a finite float other than zero. -/
def significant (count : Nat) (x : Binary64) : Decimal :=
  let magnitude := x.ratio
  let exponent := leadingExponent magnitude.1 magnitude.2 - count + 1
  let scaled := shiftRatio magnitude.1 magnitude.2 exponent
  ofScaled (divNearestEven scaled.1 scaled.2) exponent

/-! ## Laying digits out -/

/-- An exponent with its sign and at least `width` digits. -/
def exponentText (width : Nat) (exponent : Int) : List Char :=
  let digits := Nat.toDigits 10 exponent.natAbs
  'e' :: (if exponent < 0 then '-' else '+') ::
    (List.replicate (width - digits.length) '0' ++ digits)

/-- Digits around a decimal point, with at least one digit on either side of it. -/
def positional (decimal : Decimal) : List Char :=
  let zeros (count : Int) : List Char := List.replicate count.toNat '0'
  if decimal.exponent < 0 then
    ['0', '.'] ++ zeros (-decimal.exponent - 1) ++ decimal.digits
  else
    let whole := decimal.digits.take (decimal.exponent + 1).toNat
    let rest := decimal.digits.drop (decimal.exponent + 1).toNat
    whole ++ zeros (decimal.exponent + 1 - decimal.digits.length) ++ ['.'] ++
      (if rest.isEmpty then ['0'] else rest)

/-- One digit before the point and an exponent. -/
def scientific (layout : DecimalLayout) (decimal : Decimal) : List Char :=
  let rest := decimal.digits.drop 1
  let fraction :=
    if rest.isEmpty then (if layout.keepsPoint then ['.', '0'] else []) else '.' :: rest
  decimal.digits.take 1 ++ fraction ++ exponentText layout.exponentDigits decimal.exponent

/-- The text of a decimal in a layout. -/
def render (layout : DecimalLayout) (decimal : Decimal) : List Char :=
  if layout.least ≤ decimal.exponent && decimal.exponent ≤ layout.greatest then
    decimal.positional
  else decimal.scientific layout

end Decimal

/-- The text of a finite float from a choice of digits and a layout. -/
def Binary64.render (layout : DecimalLayout) (choose : Binary64 → Decimal) (x : Binary64) :
    String :=
  let digits := if x.significand = 0 then ['0', '.', '0'] else (choose x).render layout
  String.ofList (if x.isNegative then '-' :: digits else digits)

end TableQuery.Numeral
