import TableQuery.OperatorSet.Basic

/-!
# Keys of operator sets

An operator set by its keys. A key is a comparison, a pattern operator, a list operator, a null
check or a case flag; its value is an operand, a list of operands, or nothing but its presence.

## Main definitions

* `OperatorKey`: the keys, with their names.
* `OperatorSet.entries`: the keys that are present, with their values.
* `KeyReader`, `OperatorSet.readKey`: reading the value of a key out of any notation.
-/

namespace TableQuery

/-! ## Keys -/

/-- The keys of an operator set. -/
inductive OperatorKey where
  /-- A comparison. -/
  | comparison (operator : Comparison)
  /-- A pattern operator. -/
  | pattern (operator : Pattern)
  /-- Equal to one of a list. -/
  | oneOf
  /-- Equal to none of a list. -/
  | noneOf
  /-- Null. -/
  | isNull
  /-- Not null. -/
  | isNotNull
  /-- A case flag. -/
  | flag (operator : CaseFlag)
  deriving DecidableEq, Repr

namespace OperatorKey

/-- How a key is written. -/
def name : OperatorKey → String
  | .comparison operator => operator.name
  | .pattern operator => operator.name
  | .oneOf => "in"
  | .noneOf => "notIn"
  | .isNull => "isNull"
  | .isNotNull => "isNotNull"
  | .flag operator => operator.name

/-- The keys of an operator set for a date column. -/
def dateKeys : List OperatorKey :=
  Comparison.all.map comparison ++ [oneOf, noneOf, isNull, isNotNull]

/-- The keys of an operator set. -/
def all : List OperatorKey :=
  Comparison.all.map comparison ++ Pattern.all.map pattern ++
    [oneOf, noneOf, isNull, isNotNull] ++ CaseFlag.all.map flag

/-- The key of a name among some keys. -/
def find? (keys : List OperatorKey) (name : String) : Option OperatorKey :=
  keys.find? fun key => key.name = name

end OperatorKey

/-! ## Entries -/

/-- The value of a key. -/
inductive OperatorValue where
  /-- An operand. -/
  | operand (value : Operand)
  /-- Operands of a list operator. -/
  | operands (values : List Operand)
  /-- A check or a flag that is set. -/
  | present
  deriving DecidableEq, Repr

namespace OperatorSet

/-- The value of a key, if it is present. -/
def value? (set : OperatorSet) : OperatorKey → Option OperatorValue
  | .comparison operator => (set.comparison operator).map .operand
  | .pattern operator => (set.pattern operator).map .operand
  | .oneOf => set.oneOf.map .operands
  | .noneOf => set.noneOf.map .operands
  | .isNull => if set.isNull then some .present else none
  | .isNotNull => if set.isNotNull then some .present else none
  | .flag operator => if set.flag operator then some .present else none

/-- The keys that are present, with their values. -/
def entries (set : OperatorSet) : List (OperatorKey × OperatorValue) :=
  OperatorKey.all.filterMap fun key => (set.value? key).map fun value => (key, value)

end OperatorSet

/-! ## Reading -/

/-- How the values of keys are read out of a notation. -/
structure KeyReader (ν ε : Type) where
  /-- An operand, or its absence. -/
  operand : ν → Except ε (Option Operand)
  /-- A list of operands, or its absence. -/
  operands : ν → Except ε (Option (List Operand))
  /-- A flag. -/
  flag : ν → Except ε Bool

/-- Reads the value of one key into an operator set. -/
def OperatorSet.readKey {ν ε : Type} (reader : KeyReader ν ε) (key : OperatorKey) (value : ν)
    (set : OperatorSet) : Except ε OperatorSet := do
  match key with
  | .comparison operator =>
    let operand ← reader.operand value
    return { set with toValueOperators := set.setComparison operator operand }
  | .pattern operator => return set.setPattern operator (← reader.operand value)
  | .oneOf => return { set with oneOf := ← reader.operands value }
  | .noneOf => return { set with noneOf := ← reader.operands value }
  | .isNull => return { set with isNull := ← reader.flag value }
  | .isNotNull => return { set with isNotNull := ← reader.flag value }
  | .flag operator => return set.setFlag operator (← reader.flag value)

/-- The operators of a set that a date column knows. -/
def OperatorSet.dates (set : OperatorSet) : DateOperatorSet :=
  { toValueOperators := set.toValueOperators }

/-- A date operator set as a set for any column, its operands as they are. -/
def DateOperatorSet.operators (set : DateOperatorSet) : OperatorSet :=
  { toValueOperators := set.toValueOperators }

end TableQuery
