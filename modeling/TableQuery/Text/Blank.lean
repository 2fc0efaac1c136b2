/-!
# Blank characters

The characters that may surround a value without being part of it, and a text stripped of them.

## Main definitions

* `isBlank`: the Unicode property White_Space.
* `strip`, `trim`: a text without the blank characters at either end.
-/

namespace TableQuery.Text

/-- Whether a character has the Unicode property White_Space. -/
def isBlank (c : Char) : Bool :=
  let code := c.toNat
  (0x09 ≤ code && code ≤ 0x0d) || code = 0x20 || code = 0x85 || code = 0xa0 || code = 0x1680 ||
    (0x2000 ≤ code && code ≤ 0x200a) || code = 0x2028 || code = 0x2029 || code = 0x202f ||
    code = 0x205f || code = 0x3000

/-- The characters of a text without the blank ones at either end. -/
def strip (chars : List Char) : List Char :=
  ((chars.dropWhile isBlank).reverse.dropWhile isBlank).reverse

/-- A text without the blank characters at either end. -/
def trim (text : String) : String :=
  String.ofList (strip text.toList)

@[simp] theorem strip_nil : strip [] = [] := rfl

end TableQuery.Text
