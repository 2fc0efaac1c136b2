import TableQuery.Json.Basic
import TableQuery.Numeral.Decimal

/-!
# Writing JSON

The compact text of a JSON value: no blanks, a float with the fewest digits that read back, a
character escaped only where JSON demands it.

## Main definitions

* `floatLayout`: where floats have an exponent.
* `quotedChars`: the written form of a text.
* `Json.compact`: the written form of a value.
-/

namespace TableQuery.Json

open Numeral

/-- Floats are written positionally from 10⁻⁵ to below 10¹⁶ and with an exponent elsewhere, such as
`1e-7` or `2.5e+16`. -/
def floatLayout : DecimalLayout := ⟨-5, 15, false, 1⟩

/-- A float with the fewest digits that read back; JSON has no text for one that is not finite. -/
def floatText (value : Binary64) : String :=
  if value.isFinite then value.render floatLayout Decimal.shortest else "null"

/-- A control character by four hexadecimal digits. -/
def hexEscape (c : Char) : List Char :=
  let digits := Nat.toDigits 16 c.toNat
  ['\\', 'u'] ++ List.replicate (4 - digits.length) '0' ++ digits

/-- The written form of one character inside a text. -/
def escape (c : Char) : List Char :=
  if c = '"' then ['\\', '"']
  else if c = '\\' then ['\\', '\\']
  else if c = '\n' then ['\\', 'n']
  else if c = '\r' then ['\\', 'r']
  else if c = '\t' then ['\\', 't']
  else if c = '\x08' then ['\\', 'b']
  else if c = '\x0c' then ['\\', 'f']
  else if c.toNat < 0x20 then hexEscape c
  else [c]

/-- The written form of a text, quotes included. -/
def quoted (value : String) : String :=
  String.ofList ('"' :: (value.toList.flatMap escape ++ ['"']))

mutual

/-- The compact written form of a value. -/
def compact : Json → String
  | null => "null"
  | boolean value => if value then "true" else "false"
  | integer value => toString value
  | float value => floatText value
  | text value => quoted value
  | list items => "[" ++ ",".intercalate (compactItems items) ++ "]"
  | object fields => "\x7b" ++ ",".intercalate (compactFields fields) ++ "\x7d"

/-- The written forms of the items of a list. -/
def compactItems : List Json → List String
  | [] => []
  | item :: rest => compact item :: compactItems rest

/-- The written forms of the fields of an object. -/
def compactFields : List (String × Json) → List String
  | [] => []
  | (name, value) :: rest => (quoted name ++ ":" ++ compact value) :: compactFields rest

end

end TableQuery.Json
