import TableQuery.Database.Formula
import TableQuery.Identifier
import TableQuery.Projection
import TableQuery.Registry

/-!
# Tables

The tables of a database: columns with declared types, and numbered rows. Names of tables and
columns are the same up to the case of their ASCII letters. A column may be named with its table in
front of it, a table with the name of the whole database.

The values of some columns are not stored but computed from those of others. Such a column can be
asked for by its name and is there where all columns are asked for, but a database does not list it
among the columns of its table.

## Main definitions

* `Column`, `ComputedColumn`, `Row`, `Table`, `Database`.
* `Database.table?`, `Table.column?`: looking names up.
* `Table.insert`: storing a row.
* `Database.columns`, `Registry.ofColumns`: what clients may ask of a table.
-/

namespace TableQuery

/-! ## Tables -/

/-- A column of a table. -/
structure Column where
  /-- The name. -/
  name : String
  /-- The declared type. -/
  declaredType : String
  deriving DecidableEq, Repr

/-- How a column converts values. -/
def Column.affinity (column : Column) : Affinity := .ofDeclared column.declaredType

/-- A column whose values are computed from those of other columns. -/
structure ComputedColumn extends Column where
  /-- What its values are. -/
  expression : Scalar
  deriving DecidableEq, Repr

/-- A row of a table. -/
structure Row where
  /-- The number of the row. -/
  number : Int64
  /-- The values of the columns. -/
  cells : List Cell
  deriving DecidableEq, Repr

/-- A table. -/
structure Table where
  /-- The name. -/
  name : String
  /-- The columns whose values are stored. -/
  columns : List Column
  /-- The columns whose values are computed, each from those that stand before it. -/
  computed : List ComputedColumn := []
  /-- The rows, in the order in which they were stored. -/
  rows : List Row := []
  deriving DecidableEq, Repr

/-- All columns of a table, in the order of the values of a row. -/
def Table.allColumns (table : Table) : List Column :=
  table.columns ++ table.computed.map ComputedColumn.toColumn

/-- The tables of a database. -/
structure Database where
  /-- The tables. -/
  tables : List Table := []
  deriving DecidableEq, Repr

/-! ## Names -/

/-- Whether two names are the same. -/
def sameName (a b : String) : Bool := a.toList.map Char.toLower = b.toList.map Char.toLower

/-- What stands before the point of a name, if it has one, and what stands after it. -/
def splitName (name : String) : Option String × String :=
  match name.toList.splitOn '.' with
  | [qualifier, name] => (some (String.ofList qualifier), String.ofList name)
  | _ => (none, name)

/-- The name of the whole database. -/
def Database.mainName : String := "main"

/-- The table of a name. -/
def Database.table? (database : Database) (name : String) : Option Table :=
  let (qualifier, name) := splitName name
  if qualifier.all (sameName Database.mainName) then
    database.tables.find? fun table => sameName table.name name
  else none

/-- A column that a name denotes. -/
inductive ColumnReference where
  /-- A declared column, by its place. -/
  | declared (index : Nat) (column : Column)
  /-- The number of the row. -/
  | rowNumber
  deriving DecidableEq, Repr

namespace ColumnReference

/-- The names of the number of the row. -/
def rowNumberNames : List String := ["rowid", "oid", "_rowid_"]

/-- The name of a referenced column. -/
def name : ColumnReference → String
  | declared _ column => column.name
  | rowNumber => "rowid"

/-- The value of a referenced column in a row. -/
def datum (reference : ColumnReference) (row : Row) : Datum :=
  match reference with
  | declared index column => ⟨row.cells[index]?.getD .null, some column.affinity⟩
  | rowNumber => ⟨.integer row.number, some .integer⟩

end ColumnReference

/-- The column that a name denotes; a declared one hides the number of the row. -/
def Table.column? (table : Table) (name : String) : Option ColumnReference :=
  let (qualifier, name) := splitName name
  if qualifier.all (sameName table.name) then
    match table.allColumns.zipIdx.find? fun entry => sameName entry.1.name name with
    | some (column, index) => some (.declared index column)
    | none => if ColumnReference.rowNumberNames.any (sameName name) then some .rowNumber else none
  else none

/-- The values of the columns of a row. -/
def Table.scope (table : Table) (row : Row) (name : String) : Datum :=
  match table.column? name with
  | some reference => reference.datum row
  | none => { cell := .null }

/-! ## Storing -/

/-- The row with the value of a computed column, which may depend on the values before it. -/
def Table.compute (table : Table) (row : Row) (column : ComputedColumn) : Row :=
  let cell := (column.expression.datum (table.scope row)).cell
  { row with cells := row.cells ++ [column.affinity.store cell] }

/-- The table with a further row, of which the values of stored columns are given. -/
def Table.insert (table : Table) (values : List Cell) : Table :=
  let cells := List.zipWith (fun (column : Column) cell => column.affinity.store cell)
    table.columns values
  let row : Row := ⟨Int64.ofNat (table.rows.length + 1), cells⟩
  { table with rows := table.rows ++ [table.computed.foldl table.compute row] }

/-! ## What clients may ask -/

/-- Whether a column holds dates, by the name of its type. -/
def Column.isDate (column : Column) : Bool :=
  let upper := column.declaredType.toList.map Char.toUpper
  Text.occursIn "DATE".toList upper || Text.occursIn "TIME".toList upper

/-- The columns that a database lists for a table; computed ones are not among them. -/
def Database.listedColumns (database : Database) (name : String) : List Column :=
  ((database.table? name).map Table.columns).getD []

/-- The columns of a table by the list of the database, which takes no name with the database in
front of it. Where nothing is listed there is no table. -/
def Database.columns (database : Database) (table : String) : Except QueryError (List Column) := do
  let name := (← Identifier.check table).name
  if (splitName name).1.isSome then .error (.database (.unexpected "."))
  else
    let columns := database.listedColumns name
    if columns.isEmpty then .error (.unknownTable name) else .ok columns

/-- The registry in which every column may be filtered and sorted by under its own name. -/
def Registry.ofColumns (columns : List Column) : Except QueryError Registry :=
  let add (registry : Registry) (column : Column) : Registry :=
    (registry.addFilter column.name column.name
      (if column.isDate then .date else .generic)).addSortable column.name column.name
  (columns.foldl add {}).build

/-- The projection in which every column is known by its own name. -/
def Projection.ofTable (columns : List Column) : Projection := .ofColumns (columns.map Column.name)

end TableQuery
