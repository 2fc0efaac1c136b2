/-!
# 64-bit binary floating point

A float is its bit pattern: a sign, an eleven-bit exponent and a 52-bit fraction. All
arithmetic on it is exact arithmetic on natural numbers, so a float read from a decimal is the
nearest one, and comparisons with integers lose nothing.

## Main definitions

* `Binary64`: a bit pattern; `isNaN`, `isFinite`, `isNegative`.
* `roundRatio`: a positive ratio rounded to a binary grid, a tie going to the even neighbour.
* `Binary64.ofRatio`, `Binary64.ofDecimal`, `Binary64.ofInt`: the nearest float.
* `Binary64.significand`, `Binary64.exponent`: the exact value of a finite float.
* `Binary64.compareInt`, `Binary64.compare`: order by value.
* `Binary64.toSingle`: the value rounded to 32-bit precision.
-/

namespace TableQuery.Numeral

/-- A 64-bit float, by its bit pattern. -/
structure Binary64 where
  /-- Sign, exponent and fraction, from the highest bit down. -/
  bits : UInt64
  deriving DecidableEq, Repr

/-- `a · 2 ^ e` as a ratio of natural numbers. -/
def scaleRatio (a : Nat) (e : Int) : Nat × Nat :=
  if 0 ≤ e then (a * Nat.pow 2 e.toNat, 1) else (a, Nat.pow 2 (-e).toNat)

/-- The quotient of two natural numbers rounded to the nearest integer, a tie to the even one. -/
def divNearestEven (num den : Nat) : Nat :=
  let quotient := num / den
  let twice := 2 * (num % den)
  if twice < den then quotient
  else if den < twice then quotient + 1
  else quotient + quotient % 2

/-- The exponent of the binary grid with `precision` digits on which a positive ratio lies, not
below `least`. -/
def gridExponent (precision : Nat) (least : Int) (num den : Nat) : Int :=
  let guess : Int := (Nat.log2 num : Int) - Nat.log2 den - precision + 1
  let scaled := scaleRatio den guess
  let smallest := Nat.pow 2 (precision - 1) * scaled.1
  let exponent := if num * scaled.2 < smallest then guess - 1 else guess
  max least exponent

/-- A positive ratio rounded to `precision` binary digits with an exponent not below `least`:
the significand and the exponent of the result. -/
def roundRatio (precision : Nat) (least : Int) (num den : Nat) : Nat × Int :=
  let exponent := gridExponent precision least num den
  let scaled := scaleRatio den exponent
  (divNearestEven (num * scaled.2) scaled.1, exponent)

namespace Binary64

/-! ## Fields of the bit pattern -/

/-- The value of the sign bit, the highest of 64. -/
def signBit : Nat := 9223372036854775808

/-- The value of the lowest bit of the exponent, above the 52 bits of the fraction. -/
def exponentUnit : Nat := 4503599627370496

/-- Whether the sign bit is set. -/
def isNegative (x : Binary64) : Bool := signBit ≤ x.bits.toNat

/-- The biased exponent. -/
def exponentField (x : Binary64) : Nat := x.bits.toNat / exponentUnit % 2048

/-- The fraction. -/
def fraction (x : Binary64) : Nat := x.bits.toNat % exponentUnit

/-- Whether the float is a number. -/
def isFinite (x : Binary64) : Bool := x.exponentField < 2047

/-- Whether the float is no number and no infinity. -/
def isNaN (x : Binary64) : Bool := x.exponentField = 2047 && x.fraction ≠ 0

/-- The integer that a finite float multiplies by a power of two. -/
def significand (x : Binary64) : Nat :=
  if x.exponentField = 0 then x.fraction else exponentUnit + x.fraction

/-- The power of two that a finite float multiplies its significand by. -/
def exponent (x : Binary64) : Int :=
  (max 1 x.exponentField : Nat) - 1075

/-- The magnitude of a finite float as a ratio of natural numbers. -/
def ratio (x : Binary64) : Nat × Nat := scaleRatio x.significand x.exponent

/-- A bit pattern with a given sign. -/
def withSign (negative : Bool) (magnitude : Nat) : Binary64 :=
  ⟨UInt64.ofNat (if negative then signBit + magnitude else magnitude)⟩

/-- The bit pattern of infinity without its sign. -/
def infinityBits : Nat := 2047 * exponentUnit

/-- An infinity. -/
def infinity (negative : Bool) : Binary64 := withSign negative infinityBits

/-! ## Nearest floats -/

/-- The bits of `significand · 2 ^ exponent`, for a significand of at most 53 digits that has
fewer only at the least exponent. The carry out of a rounded significand moves into the
exponent by itself. -/
def encode (significand : Nat) (exponent : Int) : Nat :=
  if significand < exponentUnit then significand
  else min infinityBits ((exponent + 1074).toNat * exponentUnit + significand)

/-- The float nearest to a ratio; a zero keeps its sign. -/
def ofRatio (negative : Bool) (num den : Nat) : Binary64 :=
  if num = 0 then withSign negative 0
  else
    let rounded := roundRatio 53 (-1074) num den
    withSign negative (encode rounded.1 rounded.2)

/-- The float nearest to `digits · 10 ^ exponent`. Beyond the range of floats the power of ten is
not computed: from 10 ^ 310 on every value is infinite, below 10 ^ -330 every value is zero. -/
def ofDecimal (negative : Bool) (digits : Nat) (exponent : Int) : Binary64 :=
  let length : Int := (Nat.toDigits 10 digits).length
  if digits = 0 then withSign negative 0
  else if 310 < length + exponent then infinity negative
  else if length + exponent < -330 then withSign negative 0
  else if 0 ≤ exponent then ofRatio negative (digits * Nat.pow 10 exponent.toNat) 1
  else ofRatio negative digits (Nat.pow 10 (-exponent).toNat)

/-- The float nearest to an integer. -/
def ofInt (n : Int) : Binary64 := ofRatio (n < 0) n.natAbs 1

/-! ## Order by value -/

/-- The value of a finite float as a signed numerator over a positive denominator. -/
def signedRatio (x : Binary64) : Int × Nat :=
  let magnitude := x.ratio
  (if x.isNegative then -(magnitude.1 : Int) else magnitude.1, magnitude.2)

/-- Order of a float that is no NaN relative to an integer. -/
def compareInt (x : Binary64) (n : Int) : Ordering :=
  if x.isFinite then
    let value := x.signedRatio
    Ord.compare value.1 (n * value.2)
  else if x.isNegative then .lt else .gt

/-- Order of two floats that are no NaN; both zeros are equal. -/
def compare (x y : Binary64) : Ordering :=
  match x.isFinite, y.isFinite with
  | true, true =>
    let a := x.signedRatio
    let b := y.signedRatio
    Ord.compare (a.1 * b.2) (b.1 * a.2)
  | true, false => if y.isNegative then .gt else .lt
  | false, true => if x.isNegative then .lt else .gt
  | false, false =>
    match x.isNegative, y.isNegative with
    | true, false => .lt
    | false, true => .gt
    | _, _ => .eq

/-! ## Single precision -/

/-- The value rounded to 24 binary digits and the exponent range of a 32-bit float, as a 64-bit
float; what rounds to 2 ^ 128 or more is infinite. -/
def toSingle (x : Binary64) : Binary64 :=
  if !x.isFinite || x.significand = 0 then x
  else
    let magnitude := x.ratio
    let rounded := roundRatio 24 (-149) magnitude.1 magnitude.2
    let result := scaleRatio rounded.1 rounded.2
    if Nat.pow 2 128 * result.2 ≤ result.1 then infinity x.isNegative
    else ofRatio x.isNegative result.1 result.2

end Binary64

end TableQuery.Numeral
