/-!
# Integers of 64 bits

The range of 64-bit signed integers, and how one is read from text: an optional sign and one or
more ASCII digits, nothing else. The digits are read from the left, so the first character that is
no digit or that carries the value out of range decides the fault.

## Main definitions

* `int64?`: an integer as one of 64 bits.
* `IntegerFault`: why a text is not such an integer, with its wording `IntegerFault.message`.
* `readInt64`: the integer that a text denotes.
-/

namespace TableQuery.Numeral

/-! ## The range -/

/-- The greatest 64-bit signed integer. -/
def greatestInt64 : Nat := 9223372036854775807

/-- An integer as one of 64 bits, if it is in their range. -/
def int64? (value : Int) : Option Int64 :=
  if -(greatestInt64 : Int) - 1 ≤ value ∧ value ≤ greatestInt64 then some (Int64.ofInt value)
  else none

/-- An integer in the range keeps its value. -/
theorem toInt_of_int64? {value : Int} {result : Int64} (h : int64? value = some result) :
    result.toInt = value := by
  unfold int64? at h
  split at h
  · next hRange =>
    simp only [greatestInt64] at hRange
    obtain rfl := Option.some.inj h
    exact Int64.toInt_ofInt_of_le (by omega) (by omega)
  · simp at h

/-! ## Reading -/

/-- Why a text denotes no 64-bit signed integer. -/
inductive IntegerFault where
  /-- The text is empty. -/
  | empty
  /-- A character is no digit, or there is only a sign. -/
  | invalidDigit
  /-- The value exceeds the greatest integer. -/
  | tooLarge
  /-- The value is below the least integer. -/
  | tooSmall
  deriving DecidableEq, Repr

/-- The wording of a fault. -/
def IntegerFault.message : IntegerFault → String
  | .empty => "cannot parse integer from empty string"
  | .invalidDigit => "invalid digit found in string"
  | .tooLarge => "number too large to fit in target type"
  | .tooSmall => "number too small to fit in target type"

/-- The value of an ASCII digit. -/
def digitValue (c : Char) : Nat := c.toNat - '0'.toNat

/-- The value of digits written after `value`, while it does not exceed `limit`. -/
def readDigits (limit : Nat) (overflow : IntegerFault) : Nat → List Char → Except IntegerFault Nat
  | value, [] => .ok value
  | value, c :: rest =>
    if c.isDigit then
      if limit < value * 10 + digitValue c then .error overflow
      else readDigits limit overflow (value * 10 + digitValue c) rest
    else .error .invalidDigit

/-- The 64-bit signed integer that a text denotes. -/
def readInt64 : List Char → Except IntegerFault Int64
  | [] => .error .empty
  | ['+'] => .error .invalidDigit
  | ['-'] => .error .invalidDigit
  | '+' :: digits => return Int64.ofInt (← readDigits greatestInt64 .tooLarge 0 digits)
  | '-' :: digits => return Int64.ofInt (-(← readDigits (greatestInt64 + 1) .tooSmall 0 digits))
  | digits => return Int64.ofInt (← readDigits greatestInt64 .tooLarge 0 digits)

/-- The value of a list of decimal digits. -/
def digitsValue (digits : List Char) : Nat :=
  digits.foldl (fun value c => value * 10 + digitValue c) 0

end TableQuery.Numeral
