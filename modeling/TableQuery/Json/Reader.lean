import TableQuery.Json.Basic

/-!
# Reading JSON

The strict grammar of JSON texts: one value, blanks around its parts, nothing after it. A number
that no float can hold, half of a surrogate pair, or a nesting deeper than allowed is refused.
Of fields with the same name the last one counts.

## Main definitions

* `Json.read?`: the value that a text denotes.
-/

namespace TableQuery.Json

open Numeral

/-- Whether a character may stand between the parts of a JSON text. -/
def isSpace (c : Char) : Bool := c = ' ' || c = '\n' || c = '\t' || c = '\r'

/-- The rest of a text after the spaces at its start. -/
def skipSpace (chars : List Char) : List Char := chars.dropWhile isSpace

/-! ## Texts -/

/-- What a written text consists of before surrogate pairs are put together. -/
inductive Unit16 where
  /-- A character that was written as itself or by a letter. -/
  | char (c : Char)
  /-- Sixteen bits that were written in hexadecimal. -/
  | unit (value : Nat)

/-- The value of a hexadecimal digit. -/
def hexDigit? (c : Char) : Option Nat :=
  if c.isDigit then some (c.toNat - '0'.toNat)
  else if 'a' ≤ c && c ≤ 'f' then some (c.toNat - 'a'.toNat + 10)
  else if 'A' ≤ c && c ≤ 'F' then some (c.toNat - 'A'.toNat + 10)
  else none

/-- The value of four hexadecimal digits. -/
def hexUnit? (a b c d : Char) : Option Nat := do
  return (((← hexDigit? a) * 16 + (← hexDigit? b)) * 16 + (← hexDigit? c)) * 16 + (← hexDigit? d)

/-- The character that a letter after a backslash stands for. -/
def escaped? : Char → Option Char
  | '"' => some '"'
  | '\\' => some '\\'
  | '/' => some '/'
  | 'b' => some '\x08'
  | 'f' => some '\x0c'
  | 'n' => some '\n'
  | 'r' => some '\r'
  | 't' => some '\t'
  | _ => none

/-- Reads a written text after its opening quote up to its closing quote. -/
def readUnits : List Char → Option (List Unit16 × List Char)
  | [] => none
  | '"' :: rest => some ([], rest)
  | '\\' :: 'u' :: a :: b :: c :: d :: rest => do
    let unit ← hexUnit? a b c d
    let (units, rest) ← readUnits rest
    return (.unit unit :: units, rest)
  | '\\' :: letter :: rest => do
    let c ← escaped? letter
    let (units, rest) ← readUnits rest
    return (.char c :: units, rest)
  | c :: rest => do
    if c.toNat < 0x20 || c = '\\' then none
    let (units, rest) ← readUnits rest
    return (.char c :: units, rest)

/-- The characters of a written text: two surrogates that form a pair are one character, any other
surrogate is refused. -/
def joinUnits : List Unit16 → Option (List Char)
  | [] => some []
  | .char c :: rest => (joinUnits rest).map (c :: ·)
  | .unit high :: rest =>
    if 0xd800 ≤ high && high ≤ 0xdbff then
      match rest with
      | .unit low :: rest =>
        if 0xdc00 ≤ low && low ≤ 0xdfff then
          (joinUnits rest).map
            (Char.ofNat (0x10000 + (high - 0xd800) * 0x400 + (low - 0xdc00)) :: ·)
        else none
      | _ => none
    else if 0xdc00 ≤ high && high ≤ 0xdfff then none
    else (joinUnits rest).map (Char.ofNat high :: ·)

/-- Reads a written text after its opening quote. -/
def readText (chars : List Char) : Option (String × List Char) := do
  let (units, rest) ← readUnits chars
  return (String.ofList (← joinUnits units), rest)

/-! ## Numbers -/

/-- The value of a list of decimal digits. -/
def valueOfDigits (digits : List Char) : Nat :=
  digits.foldl (fun value c => value * 10 + (c.toNat - '0'.toNat)) 0

/-- Reads the digits of a fraction, if a point starts one. -/
def readFraction : List Char → Option (List Char × List Char)
  | '.' :: chars =>
    let digits := chars.takeWhile Char.isDigit
    if digits.isEmpty then none else some (digits, chars.dropWhile Char.isDigit)
  | chars => some ([], chars)

/-- Reads the exponent after its letter: an optional sign and digits. -/
def readExponentDigits (chars : List Char) : Option (Int × List Char) :=
  let negative := chars.head? = some '-'
  let chars := if negative || chars.head? = some '+' then chars.drop 1 else chars
  let digits := chars.takeWhile Char.isDigit
  if digits.isEmpty then none
  else
    let value : Int := valueOfDigits digits
    some (if negative then -value else value, chars.dropWhile Char.isDigit)

/-- Reads an exponent, if a letter starts one. -/
def readExponent : List Char → Option (Option Int × List Char)
  | [] => some (none, [])
  | c :: rest =>
    if c = 'e' || c = 'E' then (readExponentDigits rest).map fun (value, rest) => (some value, rest)
    else some (none, c :: rest)

/-- The number written with these parts: an integer where it fits, else the nearest float. Minus
zero is a float, and a number beyond the finite floats is none. -/
def numberOfParts? (negative : Bool) (whole fraction : List Char) (exponent : Option Int) :
    Option Json :=
  let value : Int := if negative then -(valueOfDigits whole : Int) else valueOfDigits whole
  if fraction.isEmpty && exponent.isNone && Int64.minValue.toInt ≤ value && value < UInt64.size &&
      !(negative && value = 0) then
    some (integer value)
  else
    let float := Binary64.ofDecimal negative (valueOfDigits (whole ++ fraction))
      (exponent.getD 0 - fraction.length)
    if float.isFinite then some (Json.float float) else none

/-- Reads a number after its sign. -/
def readMagnitude (negative : Bool) (chars : List Char) : Option (Json × List Char) := do
  let whole := chars.takeWhile Char.isDigit
  if whole.isEmpty || (whole.head? = some '0' && whole.length ≠ 1) then none
  let (fraction, rest) ← readFraction (chars.dropWhile Char.isDigit)
  let (exponent, rest) ← readExponent rest
  return (← numberOfParts? negative whole fraction exponent, rest)

/-- Reads a number. -/
def readNumber : List Char → Option (Json × List Char)
  | '-' :: chars => readMagnitude true chars
  | chars => readMagnitude false chars

/-! ## Values -/

/-- Reads a word that stands for a value. -/
def readWord (word : String) (value : Json) (chars : List Char) : Option (Json × List Char) :=
  if word.toList.isPrefixOf chars then some (value, chars.drop word.length) else none

mutual

/-- Reads a value and the spaces before it. `depth` bounds how many lists and objects may lie
inside each other. -/
def readValue (fuel depth : Nat) (chars : List Char) : Option (Json × List Char) :=
  match fuel with
  | 0 => none
  | fuel + 1 =>
    match skipSpace chars with
    | '"' :: rest => (readText rest).map fun (value, rest) => (text value, rest)
    | '[' :: rest =>
      match depth, skipSpace rest with
      | 0, _ => none
      | _ + 1, ']' :: rest => some (list [], rest)
      | depth + 1, rest =>
        (readItems fuel depth rest).map fun (items, rest) => (list items, rest)
    | '\x7b' :: rest =>
      match depth, skipSpace rest with
      | 0, _ => none
      | _ + 1, '\x7d' :: rest => some (ofFields [], rest)
      | depth + 1, rest =>
        (readFields fuel depth rest).map fun (fields, rest) => (ofFields fields, rest)
    | 'n' :: rest => readWord "null" null ('n' :: rest)
    | 't' :: rest => readWord "true" (boolean true) ('t' :: rest)
    | 'f' :: rest => readWord "false" (boolean false) ('f' :: rest)
    | rest => readNumber rest

/-- Reads the items of a list up to its closing bracket. -/
def readItems (fuel depth : Nat) (chars : List Char) : Option (List Json × List Char) :=
  match fuel with
  | 0 => none
  | fuel + 1 => do
    let (item, rest) ← readValue fuel depth chars
    match skipSpace rest with
    | ',' :: rest =>
      let (items, rest) ← readItems fuel depth rest
      return (item :: items, rest)
    | ']' :: rest => return ([item], rest)
    | _ => none

/-- Reads the fields of an object up to its closing brace. -/
def readFields (fuel depth : Nat) (chars : List Char) :
    Option (List (String × Json) × List Char) :=
  match fuel with
  | 0 => none
  | fuel + 1 =>
    match skipSpace chars with
    | '"' :: rest => do
      let (name, rest) ← readText rest
      match skipSpace rest with
      | ':' :: rest =>
        let (value, rest) ← readValue fuel depth rest
        match skipSpace rest with
        | ',' :: rest =>
          let (fields, rest) ← readFields fuel depth rest
          return ((name, value) :: fields, rest)
        | '\x7d' :: rest => return ([(name, value)], rest)
        | _ => none
      | _ => none
    | _ => none

end

/-- How deeply lists and objects may be nested in a text from outside. -/
def maxDepth : Nat := 127

/-- The value that a text denotes, with lists and objects nested at most `depth` deep. Every step
of the reader consumes a character or enters a value, so twice the length bounds the steps. -/
def read? (depth : Nat) (source : String) : Option Json :=
  let chars := source.toList
  match readValue (2 * chars.length + 2) depth chars with
  | some (value, rest) => if (skipSpace rest).isEmpty then some value else none
  | none => none

end TableQuery.Json
