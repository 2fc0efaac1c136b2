import TableQuery.RequestedFields

/-!
# Projections

Which columns a query has to return. A projection lists the columns that may be returned; each has
the names under which clients know it, and a mark that says whether it is wanted.

## Main definitions

* `ProjectedField`: a column, its aliases and its mark.
* `Projection`: the fields in order.
* `Projection.markRequested`, `markConnection`: marks what a client wants to see.
* `Projection.selectedColumns`: the columns of the marked fields.
-/

namespace TableQuery

/-- A column that may be returned. -/
structure ProjectedField where
  /-- The column. -/
  column : String
  /-- The names under which clients know the column, separated by commas. -/
  aliases : String
  /-- Whether the column is wanted. -/
  selected : Bool := false
  deriving DecidableEq, Repr

namespace ProjectedField

/-- The alias that stands for no name. -/
def ignoredAlias : String := "-"

/-- The names that a list of aliases holds. -/
def aliasNames (aliases : String) : List String :=
  (Text.parts ',' aliases).filter (· ≠ ignoredAlias)

/-- Whether a client wants to see a field. -/
def isRequested (requested : RequestedFields) (field : ProjectedField) : Bool :=
  (aliasNames field.aliases).any requested.contains

/-- The field, marked if a client wants to see it. -/
def mark (requested : RequestedFields) (field : ProjectedField) : ProjectedField :=
  { field with selected := field.selected || field.isRequested requested }

end ProjectedField

/-- The columns that may be returned, in order. -/
structure Projection where
  /-- The fields. -/
  fields : List ProjectedField := []
  deriving DecidableEq, Repr

namespace Projection

/-- Columns that are known by their own names. -/
def ofColumns (columns : List String) : Projection :=
  ⟨columns.map fun name => { column := name, aliases := name }⟩

/-- Adds a column with its aliases. -/
def withAliases (projection : Projection) (column aliases : String) : Projection :=
  ⟨projection.fields ++ [{ column := column, aliases := aliases }]⟩

/-- The field at an index. -/
def field? (projection : Projection) (index : Nat) : Option ProjectedField :=
  projection.fields[index]?

/-- Whether the field at an index is marked; past the end nothing is. -/
def isSelected (projection : Projection) (index : Nat) : Bool :=
  (projection.field? index).any ProjectedField.selected

/-- Sets the mark of the field at an index; past the end nothing happens. -/
def setSelected (projection : Projection) (index : Nat) (selected : Bool) : Projection :=
  ⟨projection.fields.modify index fun field => { field with selected }⟩

/-- Marks the fields that a client wants to see. -/
def markRequested (projection : Projection) (requested : RequestedFields) : Projection :=
  ⟨projection.fields.map (ProjectedField.mark requested)⟩

/-- The path from a page of items down to the fields of an item. -/
def connectionPath : List String := ["edges", "node"]

/-- Marks the fields that a client wants to see of the items of a page. -/
def markConnection (projection : Projection) (requested : RequestedFields) : Projection :=
  match requested.dive connectionPath with
  | some node => projection.markRequested node
  | none => projection

/-- The columns of the marked fields. -/
def selectedColumns (projection : Projection) : List String :=
  (projection.fields.filter ProjectedField.selected).map ProjectedField.column

@[simp] theorem length_fields_markRequested (projection : Projection)
    (requested : RequestedFields) :
    (projection.markRequested requested).fields.length = projection.fields.length := by
  simp [markRequested]

/-- Marking marks a field at an index exactly if it was marked or is wanted. -/
theorem isSelected_markRequested (projection : Projection) (requested : RequestedFields)
    (index : Nat) :
    (projection.markRequested requested).isSelected index =
      (projection.field? index).any fun field =>
        field.selected || field.isRequested requested := by
  simp only [isSelected, field?, markRequested, List.getElem?_map]
  cases projection.fields[index]? <;> simp [ProjectedField.mark]

end Projection

end TableQuery
