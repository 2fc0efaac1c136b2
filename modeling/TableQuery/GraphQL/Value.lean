import TableQuery.Json.Printer

/-!
# GraphQL values

The values of GraphQL arguments and their text, as messages show it.

## Main definitions

* `GraphQL.Value`: a value.
* `GraphQL.Value.display`: its text.
-/

namespace TableQuery.GraphQL

/-- A value of a GraphQL argument. -/
inductive Value where
  /-- No value. -/
  | null
  /-- A truth value. -/
  | boolean (value : Bool)
  /-- A number without fraction and exponent, from -2⁶³ to 2⁶⁴ - 1. -/
  | integer (value : Int)
  /-- Any other number. -/
  | float (value : Numeral.Binary64)
  /-- A text. -/
  | text (value : String)
  /-- A bare name. -/
  | enumeration (name : String)
  /-- A list. -/
  | list (items : List Value)
  /-- An object, by its fields. -/
  | object (fields : List (String × Value))
  deriving Repr, Inhabited

/-- Whether a character is a control character. -/
def isControl (c : Char) : Bool := c.toNat < 0x20 || (0x7f ≤ c.toNat && c.toNat < 0xa0)

/-- The written form of one character inside a text. A control character without a letter is
written by its code point, as four decimal digits or more. -/
def escape (c : Char) : List Char :=
  if c = '"' then ['\\', '"']
  else if c = '\\' then ['\\', '\\']
  else if c = '\n' then ['\\', 'n']
  else if c = '\r' then ['\\', 'r']
  else if c = '\t' then ['\\', 't']
  else if isControl c then
    let digits := Nat.toDigits 10 c.toNat
    ['\\', 'u'] ++ List.replicate (4 - digits.length) '0' ++ digits
  else [c]

/-- The written form of a text, quotes included. -/
def quoted (value : String) : String :=
  String.ofList ('"' :: (value.toList.flatMap escape ++ ['"']))

namespace Value

mutual

/-- The text of a value. -/
def display : Value → String
  | null => "null"
  | boolean value => if value then "true" else "false"
  | integer value => toString value
  | float value => Json.floatText value
  | text value => quoted value
  | enumeration name => name
  | list items => "[" ++ ", ".intercalate (displayItems items) ++ "]"
  | object fields => "\x7b" ++ ", ".intercalate (displayFields fields) ++ "\x7d"

/-- The texts of the items of a list. -/
def displayItems : List Value → List String
  | [] => []
  | item :: rest => display item :: displayItems rest

/-- The texts of the fields of an object. -/
def displayFields : List (String × Value) → List String
  | [] => []
  | (name, value) :: rest => (name ++ ": " ++ display value) :: displayFields rest

end

end Value

end TableQuery.GraphQL
