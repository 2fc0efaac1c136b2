import TableQuery.Keyed
import TableQuery.Numeral.Binary64

/-!
# JSON values

A JSON value. Integers between -2⁶³ and 2⁶⁴ - 1 are kept exactly; every other number is a float.
The fields of an object ascend by name, each name once, as `Json.ofFields` makes them, so whoever
walks an object meets its fields in that order.
-/

namespace TableQuery

/-- A JSON value. -/
inductive Json where
  /-- The value `null`. -/
  | null
  /-- A truth value. -/
  | boolean (value : Bool)
  /-- A number without fraction and exponent, from -2⁶³ to 2⁶⁴ - 1. -/
  | integer (value : Int)
  /-- Any other number. -/
  | float (value : Numeral.Binary64)
  /-- A text. -/
  | text (value : String)
  /-- A list. -/
  | list (items : List Json)
  /-- An object, by its fields. -/
  | object (fields : List (String × Json))
  deriving Repr, Inhabited

namespace Json

/-- The object with the given fields, of which a later one replaces an earlier one of its name. -/
def ofFields (fields : List (String × Json)) : Json := object (Keyed.ofList fields)

/-- The value of a field of an object. -/
def field? (name : String) : Json → Option Json
  | object fields => fields.lookup name
  | _ => none

/-- A 64-bit signed integer as a JSON value. -/
def ofInt64 (value : Int64) : Json := integer value.toInt

/-- A text, or `null` for none. -/
def ofText? : Option String → Json
  | some value => text value
  | none => null

/-- A list of texts. -/
def ofTexts (values : List String) : Json := list (values.map text)

end Json

end TableQuery
