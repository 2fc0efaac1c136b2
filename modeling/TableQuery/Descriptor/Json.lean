import TableQuery.Descriptor.FilterPlan
import TableQuery.OperatorSet.Json
import TableQuery.Order

/-!
# Records in JSON

Records that become filters or sorts, out of JSON. A record is an object, or a list that gives its
fields by position. Null and absence mean that an optional field is not set; any other field has its
standard value if it is absent. A key that is no field is refused.

## Main definitions

* `RecordField`: a field of a record and what it holds.
* `FilterRecord.ofJson`: a record that becomes a filter.
* `SortRecord.ofJson`: a record that becomes a sort.
-/

namespace TableQuery

/-! ## Fields -/

/-- What a field of a record holds. -/
inductive FieldContent where
  /-- An operator set. -/
  | operators
  /-- A date operator set. -/
  | dates
  /-- Records of the same type. -/
  | members
  /-- A direction. -/
  | direction
  /-- A text. -/
  | text
  deriving DecidableEq, Repr

/-- A field of a record. -/
structure RecordField where
  /-- The name. -/
  name : String
  /-- What it holds. -/
  content : FieldContent
  /-- Whether it can be without a value. -/
  optional : Bool := true
  deriving DecidableEq, Repr

namespace RecordField

/-- The field of a name. -/
def find? (fields : List RecordField) (name : String) : Option RecordField :=
  fields.find? fun field => field.name = name

/-- Whether a value leaves a field without a value. -/
def isUnset (field : RecordField) (value : Json) : Bool :=
  match value with
  | .null => field.optional
  | _ => false

/-- The error that names a key that is no field. -/
def unknown {α : Type} (fields : List RecordField) (name : String) : Except DecodeError α :=
  .error (.unknownField name (fields.map RecordField.name))

end RecordField

/-- A text. -/
def Json.asText : Json → Except DecodeError String
  | text value => .ok value
  | value => .error (.wrongKind value "a string")

/-! ## Filters -/

namespace FilterRecord

/-- The record that sets a field. -/
def setOperators (name : String) (operators : LeafOperators) : FilterRecord → FilterRecord
  | record plan set groups => record plan (Keyed.insert name operators set) groups
  | ready filter => .ready filter

/-- The record with members of a group. -/
def setMembers (name : String) (members : List FilterRecord) : FilterRecord → FilterRecord
  | record plan set groups => record plan set (Keyed.insert name members groups)
  | ready filter => .ready filter

/-- The record of a type of which nothing is said: its fields have their standard values. -/
def standard (plan : FilterPlan) (fields : List RecordField) : FilterRecord :=
  fields.foldl
    (fun result field =>
      if field.optional then result
      else match field.content with
        | .operators => result.setOperators field.name (.generic {})
        | .dates => result.setOperators field.name (.date {})
        | _ => result)
    (record plan [] [])

/-- Reads a value that holds no records into a field. -/
def decodeScalar (field : RecordField) (value : Json) (result : FilterRecord) :
    Except DecodeError FilterRecord := do
  match field.content with
  | .operators => return result.setOperators field.name (.generic (← OperatorSet.ofJson value))
  | .dates => return result.setOperators field.name (.date (← DateOperatorSet.ofJson value))
  | .members => .error (.wrongKind value "a sequence")
  | .direction => .error (.wrongKind value "an operator set")
  | .text => value.asText.map fun _ => result

variable (plan : FilterPlan) (fields : List RecordField)

mutual

/-- The record of a type that a value denotes. -/
def ofJson : Json → Except DecodeError FilterRecord
  | .object entries => decodeEntries entries (standard plan fields)
  | .list items => decodeItems items.length fields items (standard plan fields)
  | value => .error (.wrongKind value "a record")

/-- Reads the fields of an object. -/
def decodeEntries : List (String × Json) → FilterRecord → Except DecodeError FilterRecord
  | [], result => .ok result
  | (name, value) :: rest, result =>
    match RecordField.find? fields name with
    | some field => do decodeEntries rest (← decodeField field value result)
    | none => RecordField.unknown fields name

/-- Reads the items of a list by position. -/
def decodeItems (length : Nat) :
    List RecordField → List Json → FilterRecord → Except DecodeError FilterRecord
  | _, [], result => .ok result
  | [], _ :: _, _ => .error (.tooLong length)
  | field :: remaining, value :: rest, result => do
    decodeItems length remaining rest (← decodeField field value result)

/-- Reads the value of a field, whose members are records of the same type. -/
def decodeField (field : RecordField) (value : Json) (result : FilterRecord) :
    Except DecodeError FilterRecord :=
  if field.isUnset value then .ok result
  else match value with
    | .list items =>
      if field.content = .members then do
        return result.setMembers field.name (← decodeMembers items)
      else decodeScalar field (.list items) result
    | value => decodeScalar field value result

/-- Reads records. -/
def decodeMembers : List Json → Except DecodeError (List FilterRecord)
  | [] => .ok []
  | item :: rest => do
    let member ← ofJson item
    return member :: (← decodeMembers rest)

end

end FilterRecord

/-! ## Sorts -/

/-- A record that becomes a sort, by the directions that it sets. -/
abbrev SortRecord : Type := List (String × Direction)

/-- The direction that a text names. -/
def Direction.ofName (name : String) : Except DecodeError Direction :=
  match Direction.ofText name with
  | .ok direction => .ok direction
  | .error _ => .error (.unknownField name [ascending.sql, descending.sql])

/-- The direction that a value denotes: its name, or its name as the key of null. -/
def Direction.ofJson : Json → Except DecodeError Direction
  | .text name => ofName name
  | .object [(name, .null)] => ofName name
  | value => .error (.wrongKind value "a direction")

namespace SortRecord

/-- The record of which nothing is said; a direction is ascending as a standard. -/
def standard (fields : List RecordField) : SortRecord :=
  Keyed.ofList <| fields.filterMap fun field =>
    if field.content = .direction ∧ !field.optional then some (field.name, .ascending) else none

/-- Reads the value of a field. -/
def decodeField (field : RecordField) (value : Json) (record : SortRecord) :
    Except DecodeError SortRecord := do
  if field.isUnset value then return record
  match field.content with
  | .direction => return Keyed.insert field.name (← Direction.ofJson value) record
  | .text => return (← value.asText.map fun _ => record)
  | _ => .error (.wrongKind value "a direction")

/-- The record of a type that a value denotes. -/
def ofJson (fields : List RecordField) : Json → Except DecodeError SortRecord
  | .object entries =>
    Json.decodeFields (RecordField.find? fields) decodeField
      (fun name _ => RecordField.unknown fields name) entries (standard fields)
  | .list items => Json.decodePositions decodeField items.length fields items (standard fields)
  | value => .error (.wrongKind value "a record")

end SortRecord

end TableQuery
