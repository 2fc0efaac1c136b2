import TableQuery.Database.Definition
import TableQuery.OperatorSet.Json

/-!
# Databases as documents

A document is a JSON object that holds a database under each of its names. A database is a list of
tables. A table is an object with a `name`, with `columns`, a list of pairs of a name and the text
that defines the column, and with `rows`, a list of lists of values. A value is stored as the
operand that it denotes, so octets cannot be given.

## Main definitions

* `Database.ofJson?`: the database that a list of tables denotes.
* `Database.ofDocument?`: the database of a name in a document.
-/

namespace TableQuery

/-- The value that a scalar denotes. -/
def Cell.ofJson? (value : Json) : Option Cell :=
  match Operand.ofJson value with
  | .ok operand => some (.ofOperand operand)
  | .error _ => none

/-- The name and the text of a column that a pair of texts denotes. -/
def definitionOf? : Json → Option (String × String)
  | .list [.text name, .text definition] => some (name, definition)
  | _ => none

/-- The items of a list, each of them read. -/
def Json.itemsOf? {α : Type} (read? : Json → Option α) : Json → Option (List α)
  | list items => items.mapM read?
  | _ => none

/-- The table that an object denotes, with its rows stored in their order. -/
def Table.ofJson? (value : Json) : Option Table := do
  let .text name ← value.field? "name" | none
  let columns ← Json.itemsOf? definitionOf? (← value.field? "columns")
  let rows ← Json.itemsOf? (Json.itemsOf? Cell.ofJson?) (← value.field? "rows")
  return rows.foldl Table.insert (← Table.ofDefinitions? name columns)

/-- The database that a list of tables denotes. -/
def Database.ofJson? (value : Json) : Option Database :=
  (Json.itemsOf? Table.ofJson? value).map Database.mk

/-- The database of a name in the text of a document. -/
def Database.ofDocument? (name : String) (source : String) : Option Database := do
  Database.ofJson? (← (← Json.read? Json.maxDepth source).field? name)

end TableQuery
