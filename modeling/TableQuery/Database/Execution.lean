import TableQuery.Database.Formula
import TableQuery.Database.Table
import TableQuery.Request
import TableQuery.Sql.Reader

/-!
# Running queries

The rows that a query returns and the number of rows that it has without its window. A row counts
if the condition is true for it. Rows are ordered by the first key that tells them apart.

## Main definitions

* `Select.formula?`: the condition of a query as a formula.
* `Database.count`, `Database.select`: running a query.
* `Plan.fetch`: the page of a plan.
-/

namespace TableQuery

/-- The condition of a query as a formula. Where it has given fragments, its whole text is read. -/
def Select.formula? (query : Select) : Except DatabaseFault (Option Formula) :=
  match query.condition? with
  | none => .ok none
  | some condition =>
    match condition.formula? fun _ _ => none with
    | some formula => .ok (some formula)
    | none => (Sql.readFormula .standard condition.sql condition.values).map some

namespace Table

/-- The column that a name denotes, or the fault that names it. -/
def resolve (table : Table) (name : String) : Except DatabaseFault ColumnReference :=
  match table.column? name with
  | some reference => .ok reference
  | none => .error (.noSuchColumn name)

/-- The rows for which a formula is true. -/
def matching (table : Table) (formula : Option Formula) : List Row :=
  match formula with
  | none => table.rows
  | some formula => table.rows.filter fun row => formula.truth (table.scope row) = some true

/-- The rows that meet the condition of a query, whose columns have to exist. -/
def rowsOf (table : Table) (query : Select) : Except DatabaseFault (List Row) := do
  let formula ← query.formula?
  let _ ← ((formula.map Formula.columns).getD []).mapM table.resolve
  return table.matching formula

end Table

/-! ## Order and window -/

/-- An order by values, in one direction. -/
def Direction.apply (direction : Direction) (order : Ordering) : Ordering :=
  match direction with
  | .ascending => order
  | .descending => order.swap

/-- The order of two rows by some columns. -/
def compareRows (keys : List (ColumnReference × Direction)) (a b : Row) : Ordering :=
  match keys with
  | [] => .eq
  | (reference, direction) :: keys =>
    (direction.apply ((reference.datum a).cell.compare (reference.datum b).cell)).then
      (compareRows keys a b)

/-- The rows of a window. A limit below zero is none. -/
def windowOf {α : Type} (limit offset : Option Int64) (rows : List α) : List α :=
  let rows := rows.drop ((offset.map Int64.toInt).getD 0).toNat
  match limit with
  | some limit => if limit < 0 then rows else rows.take limit.toInt.toNat
  | none => rows

/-! ## Queries -/

/-- A returned row, by its columns. -/
abbrev Record : Type := List (String × Cell)

/-- The values of some columns of a row. -/
def Row.record (references : List ColumnReference) (row : Row) : Record :=
  references.map fun reference => (reference.name, (reference.datum row).cell)

namespace Database

/-- The table of a query, or the fault that names it. -/
def tableOf (database : Database) (query : Select) : Except DatabaseFault Table :=
  match database.table? query.table.name with
  | some table => .ok table
  | none => .error (.noSuchTable query.table.name)

/-- The number of rows of a query without its window. -/
def count (database : Database) (query : Select) : Except DatabaseFault Int64 := do
  let table ← database.tableOf query
  return Int64.ofNat (← table.rowsOf query).length

/-- The columns that a query returns: all of them, computed ones too, where it names none. -/
def returned (table : Table) (query : Select) : Except DatabaseFault (List ColumnReference) :=
  if query.columns.isEmpty then
    .ok (table.allColumns.zipIdx.map fun (column, index) => .declared index column)
  else query.columns.mapM fun column => table.resolve column.name

/-- The keys by which a query orders. -/
def sortKeys (table : Table) (query : Select) :
    Except DatabaseFault (List (ColumnReference × Direction)) :=
  ((query.order.map Order.keys).getD []).mapM fun key => do
    return (← table.resolve key.column.name, key.direction)

/-- The rows that a query returns. -/
def select (database : Database) (query : Select) : Except DatabaseFault (List Record) := do
  let table ← database.tableOf query
  let references ← returned table query
  let rows ← table.rowsOf query
  let keys ← sortKeys table query
  let ordered := rows.mergeSort fun a b => (compareRows keys a b).isLE
  return (windowOf query.limit query.offset ordered).map (Row.record references)

end Database

/-- A fault as an error of the request. -/
def ofDatabase {α : Type} : Except DatabaseFault α → Except QueryError α
  | .ok value => .ok value
  | .error fault => .error (.database fault)

/-- The page of a plan: its rows are counted first. -/
def Plan.fetch (plan : Plan) (database : Database) : Except QueryError (Page Record) := do
  let total ← ofDatabase (database.count plan.count)
  let records ← ofDatabase (database.select plan.select)
  return .ofItems records plan.window total

end TableQuery
