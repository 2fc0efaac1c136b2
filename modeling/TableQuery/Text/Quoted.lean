import TableQuery.Text.Visible

/-!
# Quoted text

How a message shows a text that came from outside: between double quotes, with every character
that could confuse the reader written as an escape. A quote or backslash gets a backslash, the
common control characters have their letter, and any other character that is not visible is
written by its code point.

## Main definitions

* `escape`: the written form of one character.
* `quoted`: the written form of a text, quotes included.
-/

namespace TableQuery.Text

/-- A character by its code point, in lowercase hexadecimal without padding. -/
def codePointEscape (c : Char) : List Char :=
  ['\\', 'u', '\x7b'] ++ Nat.toDigits 16 c.toNat ++ ['\x7d']

/-- The written form of one character inside a quoted text. -/
def escape (c : Char) : List Char :=
  if c = '"' then ['\\', '"']
  else if c = '\\' then ['\\', '\\']
  else if c = '\n' then ['\\', 'n']
  else if c = '\r' then ['\\', 'r']
  else if c = '\t' then ['\\', 't']
  else if c = '\x00' then ['\\', '0']
  else if isVisible c then [c]
  else codePointEscape c

/-- A text between double quotes, with its special characters escaped. -/
def quoted (text : String) : String :=
  String.ofList ('"' :: (text.toList.flatMap escape ++ ['"']))

theorem escape_eq_self {c : Char} (hVisible : isVisible c = true) (hQuote : c ≠ '"')
    (hBackslash : c ≠ '\\') : escape c = [c] := by
  unfold escape
  repeat' split
  all_goals simp_all
  all_goals exact absurd hVisible (by decide)

end TableQuery.Text
