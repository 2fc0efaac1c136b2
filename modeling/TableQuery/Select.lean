import TableQuery.Condition
import TableQuery.Order

/-!
# Queries

A query over one table: its columns, its conditions, its order and its window. The text of the
query and the text that counts its rows have the same conditions; order, columns and window do
not count.

## Main definitions

* `Select`: a query.
* `Select.ofTable`, `withColumns`, `filter`, `whereEqual`, `whereFragment`: building one.
* `Select.sql`, `Select.countSql`, `Select.values`: its texts and the values of both.
-/

namespace TableQuery

/-- A query over one table. -/
structure Select where
  /-- The table. -/
  table : Identifier
  /-- The columns; none means all. -/
  columns : List Identifier := []
  /-- The conditions, all of which hold. -/
  conditions : List Condition := []
  /-- The order of the rows. -/
  order : Option Order := none
  /-- The greatest number of rows. -/
  limit : Option Int64 := none
  /-- The number of rows to leave out first. -/
  offset : Option Int64 := none
  deriving Repr

namespace Select

/-! ## Building -/

/-- All rows of a table. -/
def ofTable (table : String) : Except QueryError Select := do
  return { table := ← Identifier.check table }

/-- The query with other columns. -/
def withColumns (query : Select) (columns : List String) : Except QueryError Select := do
  return { query with columns := ← columns.mapM Identifier.check }

/-- The query with a further condition, if there is one. -/
def filter (query : Select) (condition : Option Condition) : Select :=
  { query with conditions := query.conditions ++ condition.toList }

/-- The query with a column set to a value. -/
def whereEqual (query : Select) (column : String) (value : Operand) :
    Except QueryError Select := do
  let column ← Identifier.check column
  let atom := Atom.compare { column := column } .equal { value := value }
  return query.filter (some (.atom atom))

/-- The query with a trusted text as a further condition. The text stands in parentheses. -/
def whereFragment (query : Select) (text : String) (values : List Operand) : Select :=
  query.filter (some (.fragment ("(" ++ text ++ ")") values))

/-- The query in another order. -/
def orderBy (query : Select) (order : Order) : Select := { query with order := some order }

/-- The query with another limit. -/
def withLimit (query : Select) (limit : Int64) : Select := { query with limit := some limit }

/-- The query with another offset. -/
def withOffset (query : Select) (offset : Int64) : Select := { query with offset := some offset }

/-! ## Texts -/

/-- All conditions as one. -/
def condition? (query : Select) : Option Condition := Condition.join? .all query.conditions

/-- The part of both texts that names the conditions. -/
def whereSql (query : Select) : String :=
  match query.condition? with
  | some condition => " WHERE " ++ condition.sql
  | none => ""

/-- The values of both texts, in the order of their placeholders. -/
def values (query : Select) : List Operand := (query.condition?.map Condition.values).getD []

/-- The columns as they are written. -/
def columnsSql (query : Select) : String :=
  if query.columns.isEmpty then "*" else ", ".intercalate (query.columns.map Identifier.name)

/-- The part of the text that names the order. -/
def orderSql (query : Select) : String :=
  match query.order with
  | some order => " ORDER BY " ++ order.sql
  | none => ""

/-- The part of the text that names the window; an offset is written only if it leaves rows
out. -/
def windowSql (query : Select) : String :=
  let limit := match query.limit with
    | some limit => " LIMIT " ++ toString limit.toInt
    | none => ""
  let offset := match query.offset with
    | some offset => if 0 < offset then " OFFSET " ++ toString offset.toInt else ""
    | none => ""
  limit ++ offset

/-- The text of the query. -/
def sql (query : Select) : String :=
  "SELECT " ++ query.columnsSql ++ " FROM " ++ query.table.name ++ query.whereSql ++
    query.orderSql ++ query.windowSql

/-- The text that counts the rows of the query without its window. -/
def countSql (query : Select) : String :=
  "SELECT COUNT(*) FROM " ++ query.table.name ++ query.whereSql

@[simp] theorem filter_none (query : Select) : query.filter none = query := by
  simp [filter]

/-- The values of a query are those of its conditions, one after another. -/
theorem values_eq_flatMap (query : Select) :
    query.values = query.conditions.flatMap Condition.values := by
  unfold values condition?
  cases h : Condition.join? .all query.conditions with
  | none => simp [Condition.join?_eq_none_iff.1 h]
  | some condition => simp [Condition.values_of_join? h]

end Select

end TableQuery
