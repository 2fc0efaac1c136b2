import TableQuery.Json.Decode
import TableQuery.OperatorSet.Keys

/-!
# Operands and operator sets in JSON

An operand is any JSON scalar. An operator set is an object whose keys are the operators; null
means that an operator is absent, except inside a list, where it is an operand.

## Main definitions

* `Operand.ofJson`, `Operand.toJson`: operands in JSON.
* `OperatorSet.ofJson`, `DateOperatorSet.ofJson`: operator sets in JSON.
-/

namespace TableQuery

/-! ## Operands -/

/-- The operand that a scalar stands for; an integer beyond 64 signed bits is a float. -/
def Operand.ofJson : Json → Except DecodeError Operand
  | .null => .ok .null
  | .boolean value => .ok (.boolean value)
  | .integer value => .ok (.ofInt value)
  | .float value => .ok (.float value)
  | .text value => .ok (.text value)
  | .list _ => .error .notAnOperand
  | .object _ => .error .notAnOperand

/-- An operand as a scalar; a float that is no number is null, an instant is its text. -/
def Operand.toJson : Operand → Json
  | .null => .null
  | .boolean value => .boolean value
  | .integer value => .integer value.toInt
  | .float value => if value.isFinite then .float value else .null
  | .text value => .text value
  | .timestamp value => .text value.text

/-! ## Sets -/

/-- The operand of a key, absent where the value is null. -/
def decodeOptional {α : Type} (decode : Json → Except DecodeError α) :
    Json → Except DecodeError (Option α)
  | .null => .ok none
  | value => return some (← decode value)

/-- The operands of a list. -/
def decodeOperands (value : Json) : Except DecodeError (List Operand) := do
  (← value.asList).mapM Operand.ofJson

/-- How the values of keys are read out of JSON. -/
def jsonKeys : KeyReader Json DecodeError where
  operand := decodeOptional Operand.ofJson
  operands := decodeOptional decodeOperands
  flag := Json.asBoolean

/-- Reads an operator set that may have some keys, by key or by position. -/
def OperatorSet.decode (keys : List OperatorKey) (shape : String) :
    Json → Except DecodeError OperatorSet
  | .object fields =>
    Json.decodeFields (OperatorKey.find? keys) (readKey jsonKeys)
      (fun name _ => .error (.unknownField name (keys.map OperatorKey.name))) fields {}
  | .list items => Json.decodePositions (readKey jsonKeys) items.length keys items {}
  | value => .error (.wrongKind value shape)

/-- The operator set that a value denotes. -/
def OperatorSet.ofJson (value : Json) : Except DecodeError OperatorSet :=
  decode OperatorKey.all "struct GenericFilter" value

/-- The date operator set that a value denotes. -/
def DateOperatorSet.ofJson (value : Json) : Except DecodeError DateOperatorSet := do
  return (← OperatorSet.decode OperatorKey.dateKeys "struct DateFilter" value).dates

end TableQuery
