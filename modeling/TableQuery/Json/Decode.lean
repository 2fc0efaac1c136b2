import TableQuery.Json.Printer
import TableQuery.Numeral.Integer
import TableQuery.Text.Quoted

/-!
# Reading values out of JSON

Why a JSON value does not have the shape that is asked for, and the readers of the plain shapes.
A value is described by its kind, and scalars are shown.

## Main definitions

* `Json.describe`: a value by its kind.
* `DecodeError`: why a value does not fit, with its wording `DecodeError.message`.
* `Json.asBoolean`, `Json.asInt64`, `Json.asList`: readers of plain shapes.
* `Json.decodeRecord`: a value of fixed keys, given by its fields or by position.
-/

namespace TableQuery

open Text (quoted)

/-- A value by its kind, with scalars shown. -/
def Json.describe : Json → String
  | null => "null"
  | boolean value => s!"boolean `{value}`"
  | integer value => s!"integer `{value}`"
  | float value => s!"floating point `{floatText value}`"
  | text value => s!"string {Text.quoted value}"
  | list _ => "sequence"
  | object _ => "map"

/-- Why a value does not have the shape that is asked for. -/
inductive DecodeError where
  /-- The value is of another kind. -/
  | wrongKind (found : Json) (expected : String)
  /-- The value is of the right kind and out of range. -/
  | outOfRange (found : Json) (expected : String)
  /-- An object has a field that is not among the known ones. -/
  | unknownField (name : String) (known : List String)
  /-- A list or an object stands where an operand is asked for. -/
  | notAnOperand
  /-- A list has more items than there are fields. -/
  | tooLong (length : Nat)

/-- The wording of an error. -/
def DecodeError.message : DecodeError → String
  | wrongKind found expected => s!"invalid type: {found.describe}, expected {expected}"
  | outOfRange found expected => s!"invalid value: {found.describe}, expected {expected}"
  | unknownField name known =>
    let names := ", ".intercalate (known.map fun key => "`" ++ key ++ "`")
    s!"unknown field `{name}`, expected one of {names}"
  | notAnOperand => "data did not match any variant of untagged enum SqlValue"
  | tooLong length => s!"invalid length {length}, expected fewer elements in array"

namespace Json

/-- A truth value. -/
def asBoolean : Json → Except DecodeError Bool
  | boolean value => .ok value
  | value => .error (.wrongKind value "a boolean")

/-- A 64-bit signed integer. -/
def asInt64 : Json → Except DecodeError Int64
  | integer value =>
    match Numeral.int64? value with
    | some result => .ok result
    | none => .error (.outOfRange (integer value) "i64")
  | value => .error (.wrongKind value "i64")

/-- The items of a list. -/
def asList : Json → Except DecodeError (List Json)
  | list items => .ok items
  | value => .error (.wrongKind value "a sequence")

/-- Reads the fields of an object in their order. `find?` names the known keys, `keys` lists them
for the error message, `step` reads the value of a key. A value of an unknown key goes to
`onUnknown`. -/
def decodeFields {κ σ : Type} (find? : String → Option κ) (step : κ → Json → σ → Except DecodeError σ)
    (onUnknown : String → σ → Except DecodeError σ) :
    List (String × Json) → σ → Except DecodeError σ
  | [], state => .ok state
  | (name, value) :: rest, state => do
    let state ← match find? name with
      | some key => step key value state
      | none => onUnknown name state
    decodeFields find? step onUnknown rest state

/-- Reads values by position, one for each key. More values than keys are an error, which is found
after the values that have a key. -/
def decodePositions {κ σ : Type} (step : κ → Json → σ → Except DecodeError σ) (length : Nat) :
    List κ → List Json → σ → Except DecodeError σ
  | _, [], state => .ok state
  | [], _ :: _, _ => .error (.tooLong length)
  | key :: keys, value :: values, state => do
    decodePositions step length keys values (← step key value state)

end Json

end TableQuery
