import TableQuery.Text.Blank

/-!
# Lists written in one text

Names written in one text and separated by a character, such as `edges.node.title` or
`title, name`. Blank characters around a name do not belong to it, and a name of no characters is
no name.

## Main definitions

* `partsOf`: the names of a text, as characters.
* `parts`: the names of a text.
-/

namespace TableQuery.Text

/-- The non-empty stripped stretches between the separators. -/
def partsOf (separator : Char) (chars : List Char) : List (List Char) :=
  ((chars.splitOn separator).map strip).filter fun part => !part.isEmpty

/-- The names of a text, in the order in which they are written. -/
def parts (separator : Char) (text : String) : List String :=
  (partsOf separator text.toList).map String.ofList

@[simp] theorem partsOf_nil (separator : Char) : partsOf separator [] = [] := by
  simp [partsOf]

end TableQuery.Text
