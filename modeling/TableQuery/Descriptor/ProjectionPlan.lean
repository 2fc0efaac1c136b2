import TableQuery.Descriptor.Declaration
import TableQuery.Projection

/-!
# Projection plans

How the records of a declared type choose columns: which of their fields are marks of columns. A
field with an attribute has to be a flag; its column and its alias are the last ones it is given, and
its own name where it is given none.

## Main definitions

* `ProjectionPlan.ofDeclaration`: the plan of a declared type.
* `MarkedRecord`: a record of such a type, with the operations of a projection.
-/

namespace TableQuery

/-- A field that marks a column. -/
structure MarkField where
  /-- The field. -/
  name : String
  /-- The column. -/
  column : String
  /-- The names under which clients know the column, separated by commas. -/
  aliases : String
  deriving DecidableEq, Repr

/-- How records choose columns. -/
structure ProjectionPlan where
  /-- The fields that mark a column. -/
  marks : List MarkField
  deriving DecidableEq, Repr

namespace ProjectionPlan

/-- A field that marks a column after one more mark. -/
def fieldAfter (field : MarkField) (mark : Mark) : Except DeclarationError MarkField :=
  match mark with
  | .bare => .error (.bareAttribute .projection)
  | .item item =>
    if item.key = aliasKey then return { field with aliases := ← item.textValue }
    else if item.key = columnKey then return { field with column := ← item.columnValue }
    else .error (.unknownKey .projection)

/-- Whether a field is a flag. -/
def isFlag (field : FieldDeclaration) : Bool := Text.trim field.type = "bool"

/-- The field as a field that marks a column, if it is one. -/
def markField (field : FieldDeclaration) : Except DeclarationError (Option MarkField) := do
  let marked ← (field.marks .projection).foldlM fieldAfter ⟨field.name, field.name, field.name⟩
  if (field.attributesOf .projection).isEmpty then return none
  else if isFlag field then return some marked
  else .error .notAFlag

/-- The plan of a declared type. -/
def ofDeclaration (declaration : Declaration) : Except DeclarationError ProjectionPlan := do
  let fields ← declaration.namedFields .projection
  return ⟨(← fields.mapM markField).filterMap id⟩

/-- The projection in which no column is marked. -/
def projection (plan : ProjectionPlan) : Projection :=
  plan.marks.foldl (fun projection field => projection.withAliases field.column field.aliases) {}

end ProjectionPlan

/-! ## Records -/

/-- The value of a field of a record that chooses columns. -/
inductive MarkedValue where
  /-- A flag. -/
  | flag (value : Bool)
  /-- Anything else. -/
  | other (text : String)
  deriving DecidableEq, Repr

/-- A record that chooses columns. -/
structure MarkedRecord where
  /-- How the fields choose columns. -/
  plan : ProjectionPlan
  /-- The values of the fields. -/
  values : List (String × MarkedValue)
  deriving DecidableEq, Repr

namespace MarkedRecord

/-- The record in which no flag is set. -/
def ofPlan (plan : ProjectionPlan) : MarkedRecord :=
  ⟨plan, plan.marks.map fun field => (field.name, .flag false)⟩

/-- Sets the flag of a field. -/
def setFlag (name : String) (selected : Bool) (values : List (String × MarkedValue)) :
    List (String × MarkedValue) :=
  values.map fun entry => if entry.1 = name then (name, .flag selected) else entry

/-- The number of columns that may be chosen. -/
def size (record : MarkedRecord) : Nat := record.plan.marks.length

/-- The column and the aliases at an index. -/
def field? (record : MarkedRecord) (index : Nat) : Option (String × String) :=
  record.plan.marks[index]?.map fun field => (field.column, field.aliases)

/-- Whether the column at an index is chosen; past the end nothing is. -/
def isSelected (record : MarkedRecord) (index : Nat) : Bool :=
  record.plan.marks[index]?.any fun field =>
    record.values.lookup field.name = some (.flag true)

/-- Chooses the column at an index or not; past the end nothing happens. -/
def setSelected (record : MarkedRecord) (index : Nat) (selected : Bool) : MarkedRecord :=
  match record.plan.marks[index]? with
  | some field => { record with values := setFlag field.name selected record.values }
  | none => record

/-- Chooses the columns that a client wants to see. -/
def markRequested (record : MarkedRecord) (requested : RequestedFields) : MarkedRecord :=
  (List.range record.size).foldl
    (fun record index =>
      match record.field? index with
      | some (_, aliases) =>
        if (ProjectedField.aliasNames aliases).any requested.contains then
          record.setSelected index true
        else record
      | none => record)
    record

/-- Chooses the columns that a client wants to see of the items of a page. -/
def markConnection (record : MarkedRecord) (requested : RequestedFields) : MarkedRecord :=
  match requested.dive Projection.connectionPath with
  | some node => record.markRequested node
  | none => record

/-- The chosen columns. -/
def selectedColumns (record : MarkedRecord) : List String :=
  (List.range record.size).filterMap fun index =>
    if record.isSelected index then (record.field? index).map Prod.fst else none

end MarkedRecord

end TableQuery
