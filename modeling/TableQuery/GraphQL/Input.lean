import TableQuery.GraphQL.Value
import TableQuery.OperatorSet.Keys
import TableQuery.Page

/-!
# GraphQL input

Operands, operator sets, windows and directions out of GraphQL arguments. The fields of an object
are read in the order of their declaration and unknown ones are passed over. A failure inside a
field tells the types it lies in, from the inside out.

## Main definitions

* `InputError`: why a value does not fit, with its wording `InputError.message`.
* `Operand.ofGraphQL`, `Operand.toGraphQL`, `OperatorSet.ofGraphQL`, `DateOperatorSet.ofGraphQL`,
  `PageWindow.ofGraphQL`, `Direction.ofGraphQL`: the readers.
-/

namespace TableQuery.GraphQL

/-! ## Errors -/

/-- Why a value does not fit a type. -/
inductive Mismatch where
  /-- The value is of another type. -/
  | expected (type : String) (found : Value)
  /-- A number is no 64-bit signed integer. -/
  | invalidNumber (type : String)
  /-- A name is none of an enumeration. -/
  | unknownItem (type : String) (name : String)

/-- The wording of a mismatch. -/
def Mismatch.message : Mismatch → String
  | expected type found => s!"Expected input type \"{type}\", found {found.display}."
  | invalidNumber type => s!"Failed to parse \"{type}\": Invalid number"
  | unknownItem type name =>
    s!"Failed to parse \"{type}\": Enumeration type does not contain value \"{name}\"."

/-- A mismatch and the types it lies in, the innermost first. -/
structure InputError where
  /-- The mismatch. -/
  mismatch : Mismatch
  /-- The types around it. -/
  within : List String := []

/-- The wording of an error. -/
def InputError.message (error : InputError) : String :=
  error.mismatch.message ++
    String.join (error.within.map fun type => s!" (occurred while parsing \"{type}\")")

/-- A failure inside a type. -/
def inside {α : Type} (type : String) : Except InputError α → Except InputError α
  | .ok value => .ok value
  | .error error => .error { error with within := error.within ++ [type] }

/-! ## Scalars -/

/-- A value of another type than asked for. -/
def expected {α : Type} (type : String) (found : Value) : Except InputError α :=
  .error { mismatch := .expected type found }

/-- The operand that a value stands for; a bare name is its text. -/
def operandOf : Value → Except InputError Operand
  | .null => .ok .null
  | .boolean value => .ok (.boolean value)
  | .integer value => .ok (.ofInt value)
  | .float value => .ok (.float value)
  | .text value => .ok (.text value)
  | .enumeration name => .ok (.text name)
  | value => expected "FilterValue" value

/-- The value that stands for an operand; a float that is no number is null, an instant is its
text. -/
def valueOf : Operand → Value
  | .null => .null
  | .boolean value => .boolean value
  | .integer value => .integer value.toInt
  | .float value => if value.isFinite then .float value else .null
  | .text value => .text value
  | .timestamp value => .text value.text

/-- A truth value. -/
def booleanOf : Value → Except InputError Bool
  | .boolean value => .ok value
  | value => expected "Boolean" value

/-- A 64-bit signed integer. -/
def int64Of : Value → Except InputError Int64
  | .integer value =>
    match Numeral.int64? value with
    | some result => .ok result
    | none => .error { mismatch := .invalidNumber "Int" }
  | .float _ => .error { mismatch := .invalidNumber "Int" }
  | value => expected "Int" value

/-- The direction that a name or a text names. -/
def directionOfName (name : String) : Except InputError Direction :=
  match Direction.ofText name with
  | .ok direction => .ok direction
  | .error _ => .error { mismatch := .unknownItem "SortDirection" name }

/-- The direction that a value names. -/
def directionOf : Value → Except InputError Direction
  | .enumeration name => directionOfName name
  | .text name => directionOfName name
  | value => expected "SortDirection" value

/-! ## Operator sets -/

/-- The operand of a field, absent where it is missing or null. -/
def optionalOperand : Option Value → Except InputError (Option Operand)
  | none => .ok none
  | some .null => .ok none
  | some value => return some (← operandOf value)

/-- The operands of a field: a list, or a single value as a list of one; absent where it is missing
or null. -/
def optionalOperands : Option Value → Except InputError (Option (List Operand))
  | none => .ok none
  | some .null => .ok none
  | some (.list items) => return some (← inside "[FilterValue!]" (items.mapM operandOf))
  | some value => return some [← inside "[FilterValue!]" (operandOf value)]

/-- A flag, false where it is missing. -/
def flagOf : Option Value → Except InputError Bool
  | none => .ok false
  | some value => booleanOf value

/-- How the values of keys are read out of the fields of an object. -/
def fieldKeys : KeyReader (Option Value) InputError where
  operand := optionalOperand
  operands := optionalOperands
  flag := flagOf

/-- Reads an operator set of some keys. -/
def operatorsOf (type : String) (keys : List OperatorKey) : Value → Except InputError OperatorSet
  | .object fields =>
    inside type <| keys.foldlM
      (fun set key => set.readKey fieldKeys key (fields.lookup key.name)) {}
  | value => expected type value

end GraphQL

open GraphQL

/-! ## Inputs -/

/-- The operand that an argument stands for. -/
def Operand.ofGraphQL (value : Value) : Except InputError Operand := operandOf value

/-- An operand as a value. -/
def Operand.toGraphQL (operand : Operand) : Value := valueOf operand

/-- The operator set that an argument holds. -/
def OperatorSet.ofGraphQL (value : Value) : Except InputError OperatorSet :=
  operatorsOf "GenericFilter" OperatorKey.all value

/-- The date operator set that an argument holds. -/
def DateOperatorSet.ofGraphQL (value : Value) : Except InputError DateOperatorSet := do
  return (← operatorsOf "DateFilter" OperatorKey.dateKeys value).dates

/-- The direction that an argument names. -/
def Direction.ofGraphQL (value : Value) : Except InputError Direction := directionOf value

/-- The window that an argument holds; what is missing is zero. -/
def PageWindow.ofGraphQL : Value → Except InputError PageWindow
  | .object fields => inside "PageInput" do
    let field (name : String) : Except InputError Int64 :=
      match fields.lookup name with
      | none => .ok 0
      | some value => int64Of value
    return { skip := ← field "skip", limit := ← field "limit" }
  | value => expected "PageInput" value

end TableQuery
