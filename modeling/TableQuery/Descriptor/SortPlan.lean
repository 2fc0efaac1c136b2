import TableQuery.Descriptor.Declaration
import TableQuery.Order

/-!
# Sort plans

How the records of a declared type become sorts: which fields order by which columns, in the order
of their declaration. A field with several columns orders by the last one, and a field whose last
column is `-` does not order.

## Main definitions

* `SortPlan.ofDeclaration`: the plan of a declared type.
* `SortPlan.fields`: the sort fields of a record.
-/

namespace TableQuery

/-- A field that orders, and its column. -/
structure OrderedField where
  /-- The field. -/
  name : String
  /-- The column. -/
  column : String
  deriving DecidableEq, Repr

/-- How records become sorts. -/
structure SortPlan where
  /-- The fields that order. -/
  ordered : List OrderedField
  deriving DecidableEq, Repr

namespace SortPlan

/-- The column of a field after one more mark. -/
def columnAfter (mark : Mark) : Except DeclarationError (Option String) :=
  match mark with
  | .bare => .error (.bareAttribute .sort)
  | .item item =>
    if item.key = columnKey then do
      let column ← item.columnValue
      return if column = ignoredColumn then none else some column
    else .error (.unknownKey .sort)

/-- The column that a field orders by, if it orders. -/
def columnOf (field : FieldDeclaration) : Except DeclarationError (Option String) :=
  (field.marks .sort).foldlM (fun _ mark => columnAfter mark) none

/-- The field as a field that orders, if it is one. -/
def orderedField (field : FieldDeclaration) : Except DeclarationError (Option OrderedField) := do
  return (← columnOf field).map fun column => ⟨field.name, column⟩

/-- The plan of a declared type. -/
def ofDeclaration (declaration : Declaration) : Except DeclarationError SortPlan := do
  let fields ← declaration.namedFields .sort
  return ⟨(← fields.mapM orderedField).filterMap id⟩

/-- The sort fields of a record, which is given by the directions that it sets. -/
def fields (plan : SortPlan) (record : List (String × Direction)) : List SortField :=
  plan.ordered.map fun field => ⟨field.column, record.lookup field.name⟩

end SortPlan

end TableQuery
