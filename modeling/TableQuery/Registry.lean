import TableQuery.Filter
import TableQuery.Order
import TableQuery.OperatorSet.Json

/-!
# Registries

A registry says which names a client may use in filters and sorts that arrive as JSON, and which
columns they stand for. What it does not know is passed over in silence, so a client can only ask
for registered columns; what it knows has to have the right shape.

## Main definitions

* `FieldKind`, `Registry`: the registered names, in the order of their registration.
* `Registration`, `Registry.build`: building a registry, with its columns checked.
* `Registry.parseFilter`, `Registry.parseSort`: filters and sorts out of JSON.
-/

namespace TableQuery

/-- The operators that a field knows. -/
inductive FieldKind where
  /-- All operators. -/
  | generic
  /-- The operators of dates. -/
  | date
  deriving DecidableEq, Repr

/-- A name that filters may use. -/
structure FilterField where
  /-- The name. -/
  name : String
  /-- The column. -/
  column : String
  /-- The operators. -/
  kind : FieldKind
  deriving DecidableEq, Repr

/-- A name that sorts may use. -/
structure SortableField where
  /-- The name. -/
  name : String
  /-- The column. -/
  column : String
  deriving DecidableEq, Repr

/-- The names that clients may use, in the order of their registration. -/
structure Registry where
  /-- The names for filters. -/
  filters : List FilterField := []
  /-- The names for sorts. -/
  sortable : List SortableField := []
  deriving DecidableEq, Repr

namespace Registry

/-! ## Building -/

/-- The registry with a further name for filters. -/
def addFilter (registry : Registry) (name column : String) (kind : FieldKind) : Registry :=
  { registry with filters := registry.filters ++ [⟨name, column, kind⟩] }

/-- The registry with a further name for sorts. -/
def addSortable (registry : Registry) (name column : String) : Registry :=
  { registry with sortable := registry.sortable ++ [⟨name, column⟩] }

/-- All registered columns, those for filters first. -/
def columns (registry : Registry) : List String :=
  registry.filters.map FilterField.column ++ registry.sortable.map SortableField.column

/-- The registry, if all its columns are identifiers. -/
def build (registry : Registry) : Except QueryError Registry := do
  let _ ← registry.columns.mapM Identifier.check
  return registry

/-! ## Looking up -/

/-- The column and kind of a name in filters. -/
def filterField? (registry : Registry) (name : String) : Option (String × FieldKind) :=
  (registry.filters.find? fun field => field.name = name).map fun field =>
    (field.column, field.kind)

/-- The column of a name in sorts. -/
def sortColumn? (registry : Registry) (name : String) : Option String :=
  (registry.sortable.find? fun field => field.name = name).map SortableField.column

/-- The names for filters. -/
def filterNames (registry : Registry) : List String := registry.filters.map FilterField.name

/-- The names for sorts. -/
def sortNames (registry : Registry) : List String := registry.sortable.map SortableField.name

/-! ## Filters -/

/-- The key of the group all of whose members hold. -/
def allKey : String := "AND"

/-- The key of the group one of whose members holds. -/
def anyKey : String := "OR"

/-- The key of a group. -/
def groupKey : Junction → String
  | .all => allKey
  | .any => anyKey

/-- The operators of a date field. Operands of the wrong kind come from the client here, so the
error names the field. -/
def parseDates (field : FilterField) (value : Json) : Except QueryError OperatorSet :=
  match DateOperatorSet.ofJson value with
  | .error error => .error (.unsupportedField field.name error.message)
  | .ok set =>
    match set.toGeneric with
    | .error (.unsupportedDateValue operator kind) =>
      .error (.unsupportedField field.name s!"{operator} expects a date string, got {kind}")
    | result => result

/-- The operators that the value of a field holds, if it holds any. -/
def parseOperators (field : FilterField) : Json → Except QueryError (Option OperatorSet)
  | .null => .ok none
  | .object fields =>
    match field.kind with
    | .generic =>
      match OperatorSet.ofJson (.object fields) with
      | .ok set => .ok (some set)
      | .error error => .error (.unsupportedField field.name error.message)
    | .date => (parseDates field (.object fields)).map some
  | _ => .error (.unsupportedField field.name "expected an object")

/-- The leaves of an object: one for each registered field that it sets, in the order of
registration. -/
def parseLeaves (fields : List (String × Json)) :
    List FilterField → Except QueryError (List Filter)
  | [] => .ok []
  | field :: rest => do
    let leaf ← match fields.lookup field.name with
      | none => pure none
      | some value => parseOperators field value
    let leaves ← parseLeaves fields rest
    return (leaf.map (Filter.leaf field.column)).toList ++ leaves

mutual

/-- The filter of an object: its leaves, then its two groups. No other value is a filter. -/
def parseNode (registry : Registry) : Json → Except QueryError (Option Filter)
  | .object fields => do
    let leaves ← parseLeaves fields registry.filters
    let all ← parseGroup registry .all fields
    let any ← parseGroup registry .any fields
    return some (.group .all (leaves ++ Filter.groupOf .all all ++ Filter.groupOf .any any))
  | _ => .ok none

/-- The members of a group of an object. -/
def parseGroup (registry : Registry) (junction : Junction) :
    List (String × Json) → Except QueryError (List Filter)
  | [] => .ok []
  | (name, value) :: rest =>
    if name = groupKey junction then parseGroupValue registry junction value
    else parseGroup registry junction rest

/-- The members that the value of a group lists. -/
def parseGroupValue (registry : Registry) (junction : Junction) :
    Json → Except QueryError (List Filter)
  | .null => .ok []
  | .list items => parseMembers registry items
  | _ => .error (.unsupportedField (groupKey junction) "expected an array")

/-- The filters of those members that are objects. -/
def parseMembers (registry : Registry) : List Json → Except QueryError (List Filter)
  | [] => .ok []
  | item :: rest => do
    let filter ← parseNode registry item
    return filter.toList ++ (← parseMembers registry rest)

end

/-- The filter that a value holds; null holds none. -/
def parseFilter (registry : Registry) : Json → Except QueryError (Option Filter)
  | .null => .ok none
  | .object fields => parseNode registry (.object fields)
  | _ => .error .filterNotObject

/-! ## Sorts -/

/-- The direction that the value of a field holds, if it holds one. -/
def parseDirection : Option Json → Except QueryError (Option Direction)
  | none => .ok none
  | some .null => .ok none
  | some (.text value) => return some (← Direction.ofText value)
  | some value => .error (.invalidSortDirection value.compact)

/-- The fields of an object in the order of registration. -/
def parseSortObject (registry : Registry) (fields : List (String × Json)) :
    Except QueryError (List SortField) :=
  registry.sortable.mapM fun field => do
    return ⟨field.column, ← parseDirection (fields.lookup field.name)⟩

/-- The fields of an item of a list. -/
def parseSortItem (registry : Registry) : Json → Except QueryError (List SortField)
  | .object fields => parseSortObject registry fields
  | _ => .error .sortNotObject

/-- The sort that a value holds: an object or a list of objects; null holds none. -/
def parseSort (registry : Registry) : Json → Except QueryError (Option SortSpec)
  | .null => .ok none
  | .object fields => return some (.one (← parseSortObject registry fields))
  | .list items => return some (.many (← items.mapM (parseSortItem registry)))
  | _ => .error .sortNotObject

end Registry

end TableQuery
