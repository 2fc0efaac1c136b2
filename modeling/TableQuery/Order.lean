import TableQuery.Identifier

/-!
# Orders

A client asks for an order either by one object, each of whose set fields is a key in the order of
their declaration, or by a list of objects that set one field each. Where neither sets a field a
fallback key is used, so an order always has a key and pages are deterministic.

## Main definitions

* `SortKey`, `SortField`, `SortSpec`: what is asked for.
* `Order`: the keys that a query is ordered by, with `Order.sql`.
* `Order.ofSpec`: the order that is asked for.
-/

namespace TableQuery

/-- A direction of an order. -/
inductive Direction where
  | ascending | descending
  deriving DecidableEq, Repr

/-- How a direction is written. -/
def Direction.sql : Direction → String
  | ascending => "ASC"
  | descending => "DESC"

/-- The direction that a text names. -/
def Direction.ofText (text : String) : Except QueryError Direction :=
  if text = "ASC" then .ok .ascending
  else if text = "DESC" then .ok .descending
  else .error (.invalidSortDirection text)

@[simp] theorem Direction.ofText_sql (direction : Direction) :
    Direction.ofText direction.sql = .ok direction := by
  cases direction <;> rfl

/-- A key to order by, whose column is not checked yet. -/
structure SortKey where
  /-- The column. -/
  column : String
  /-- The direction. -/
  direction : Direction
  deriving DecidableEq, Repr

/-- Without other wishes the newest rows come first. -/
def SortKey.standard : SortKey := ⟨"created_at", .descending⟩

/-- A key as it is written in a query. -/
def SortKey.text (key : SortKey) : String := key.column ++ " " ++ key.direction.sql

/-- A field of a sort object: its column, and its direction if it is set. -/
structure SortField where
  /-- The column. -/
  column : String
  /-- The direction, if the field is set. -/
  direction : Option Direction
  deriving DecidableEq, Repr

/-- What a client asks a query to be ordered by. -/
inductive SortSpec where
  /-- One object, by its fields in the order of their declaration. -/
  | one (fields : List SortField)
  /-- A list of objects. -/
  | many (objects : List (List SortField))
  deriving DecidableEq, Repr

/-- The keys of the set fields. -/
def SortField.keys (fields : List SortField) : List SortKey :=
  fields.filterMap fun field => field.direction.map fun direction => ⟨field.column, direction⟩

/-- The keys of a list of objects, none of which may set several fields. -/
def SortSpec.listKeys : List (List SortField) → Except QueryError (List SortKey)
  | [] => .ok []
  | fields :: rest =>
    let keys := SortField.keys fields
    if 1 < keys.length then .error .multipleSortFields
    else return keys ++ (← listKeys rest)

/-- The keys that are asked for. -/
def SortSpec.keys : SortSpec → Except QueryError (List SortKey)
  | one fields => .ok (SortField.keys fields)
  | many objects => listKeys objects

/-- A key that a query is ordered by. -/
structure OrderKey where
  /-- The column. -/
  column : Identifier
  /-- The direction. -/
  direction : Direction
  deriving DecidableEq, Repr

/-- A key as it is written. -/
def OrderKey.sql (key : OrderKey) : String := key.column.name ++ " " ++ key.direction.sql

/-- A key with its column checked. -/
def SortKey.check (key : SortKey) : Except QueryError OrderKey := do
  return ⟨← Identifier.check key.column, key.direction⟩

/-- What a query is ordered by: the first key decides, ties go to the next. -/
structure Order where
  /-- The keys. -/
  keys : List OrderKey
  deriving DecidableEq, Repr

/-- The keys as they are written after `ORDER BY`. -/
def Order.sql (order : Order) : String := ", ".intercalate (order.keys.map OrderKey.sql)

/-- The order by given keys, or by a fallback key where there are none. -/
def Order.ofKeys (keys : List SortKey) (fallback : SortKey) : Except QueryError Order := do
  return ⟨← (if keys.isEmpty then [fallback] else keys).mapM SortKey.check⟩

/-- The order that is asked for, by a fallback key where nothing is. -/
def Order.ofSpec (spec : Option SortSpec) (fallback : SortKey) : Except QueryError Order := do
  let keys ← match spec with
    | some spec => spec.keys
    | none => .ok []
  ofKeys keys fallback

end TableQuery
