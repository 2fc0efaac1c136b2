import TableQuery.RequestedFields

/-!
# GraphQL selections

What a client selects on a field: fields with selections of their own, and fragments, which stand
for the fields inside them. Directives may leave a selection out. The tree of requested fields of
a selection holds, of several fields of one name at one place, the last one.

## Main definitions

* `Selection`: a selection as it is written.
* `SelectedField`: a field once fragments and directives are resolved.
* `Selection.fields`: resolving.
* `RequestedFields.ofSelection`: the tree of requested fields.
-/

namespace TableQuery.GraphQL

/-- The directives of a selection. -/
structure Directives where
  /-- The argument of `@skip`, if it is there. -/
  skip : Option Bool := none
  /-- The argument of `@include`, if it is there. -/
  included : Option Bool := none
  deriving DecidableEq, Repr

/-- Whether a selection stays. -/
def Directives.keeps (directives : Directives) : Bool :=
  directives.skip ≠ some true && directives.included ≠ some false

/-- A selection as it is written. -/
inductive Selection where
  /-- A field and what is selected on it. -/
  | field (directives : Directives) (name : String) (selections : List Selection)
  /-- A fragment in place. -/
  | inlineFragment (directives : Directives) (selections : List Selection)
  /-- A fragment by its name. -/
  | spread (directives : Directives) (name : String)
  deriving Repr

/-- A selected field and the fields selected on it. -/
inductive SelectedField where
  /-- A field by its name. -/
  | field (name : String) (selections : List SelectedField)
  deriving Repr

/-- The name of a selected field. -/
def SelectedField.name : SelectedField → String
  | field name _ => name

namespace Selection

mutual

/-- The fields of a selection, named fragments looked up. -/
def resolve (fragment : String → List SelectedField) : Selection → List SelectedField
  | field directives name selections =>
    if directives.keeps then [.field name (resolveAll fragment selections)] else []
  | inlineFragment directives selections =>
    if directives.keeps then resolveAll fragment selections else []
  | spread directives name => if directives.keeps then fragment name else []

/-- The fields of some selections. -/
def resolveAll (fragment : String → List SelectedField) : List Selection → List SelectedField
  | [] => []
  | selection :: rest => resolve fragment selection ++ resolveAll fragment rest

end

/-- The fields of a named fragment, in which named fragments may lie `depth` deep. -/
def fragmentFields (fragments : List (String × List Selection)) :
    Nat → String → List SelectedField
  | 0, _ => []
  | depth + 1, name =>
    resolveAll (fragmentFields fragments depth) ((fragments.lookup name).getD [])

/-- The fields of some selections. No fragment contains itself, so the number of fragments bounds
how deep they lie in each other. -/
def fields (fragments : List (String × List Selection)) (selections : List Selection) :
    List SelectedField :=
  resolveAll (fragmentFields fragments fragments.length) selections

end Selection

end GraphQL

namespace RequestedFields

mutual

/-- The tree of what is selected on a field. -/
def ofField : GraphQL.SelectedField → RequestedFields
  | .field _ selections => addSelection selections empty

/-- A tree with further fields. -/
def addSelection : List GraphQL.SelectedField → RequestedFields → RequestedFields
  | [], tree => tree
  | field :: rest, tree => addSelection rest (tree.insert field.name (ofField field))

end

/-- The tree of selected fields. -/
def ofSelection (fields : List GraphQL.SelectedField) : RequestedFields :=
  addSelection fields empty

end RequestedFields

end TableQuery
