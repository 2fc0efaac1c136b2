import TableQuery.Descriptor.Declaration
import TableQuery.Filter

/-!
# Filter plans

How the records of a declared type become filters: which fields ask something of which columns, and
which fields hold the members of the groups. A field takes a single key. The filter of a record
holds its leaves in the order of their declaration, then the group all of whose members hold, then
the group one of whose members holds, wherever the fields of the groups stand.

## Main definitions

* `FilterPlan.ofDeclaration`: the plan of a declared type.
* `FilterRecord`: a record of such a type.
* `FilterRecord.toFilter`: the filter of a record.
-/

namespace TableQuery

/-! ## Plans -/

/-- A field that asks something of a column. -/
structure LeafField where
  /-- The field. -/
  name : String
  /-- The column. -/
  column : String
  deriving DecidableEq, Repr

/-- How records become filters. -/
structure FilterPlan where
  /-- The fields that ask something of a column. -/
  leaves : List LeafField := []
  /-- The field that holds the members all of which hold. -/
  all : Option String := none
  /-- The field that holds the members one of which holds. -/
  any : Option String := none
  deriving DecidableEq, Repr

/-- What a field does in a filter. -/
inductive FilterRole where
  /-- Nothing. -/
  | ignored
  /-- It asks something of a column. -/
  | leaf (column : String)
  /-- It holds the members of a group. -/
  | group (junction : Junction)
  deriving DecidableEq, Repr

namespace FilterRole

/-- The role of the field of a group, whose key takes no value. -/
def ofGroup (junction : Junction) (item : AttributeItem) : Except DeclarationError FilterRole :=
  match item.value with
  | none => .ok (.group junction)
  | some _ => .error .unexpectedValue

/-- The role that a key gives. -/
def ofItem (item : AttributeItem) : Except DeclarationError FilterRole :=
  if item.key = columnKey then do
    let column ← item.columnValue
    return if column = ignoredColumn then .ignored else .leaf column
  else if item.key = Junction.all.key then ofGroup .all item
  else if item.key = Junction.any.key then ofGroup .any item
  else .error (.unknownKey .filter)

/-- The role that the marks of a field give, of which there is one at most. -/
def ofMarks : List Mark → Except DeclarationError FilterRole
  | [] => .ok .ignored
  | .bare :: _ => .error (.bareAttribute .filter)
  | .item item :: rest => do
    let role ← ofItem item
    match rest with
    | [] => .ok role
    | .bare :: _ => .error (.bareAttribute .filter)
    | .item _ :: _ => .error .severalKeys

end FilterRole

namespace FilterPlan

/-- The field of a group, if there is one. -/
def group? (plan : FilterPlan) : Junction → Option String
  | .all => plan.all
  | .any => plan.any

/-- The plan with the field of a group. -/
def setGroup (plan : FilterPlan) (junction : Junction) (name : String) : FilterPlan :=
  match junction with
  | .all => { plan with all := some name }
  | .any => { plan with any := some name }

/-- The plan with a further field. -/
def addField (plan : FilterPlan) (field : FieldDeclaration) :
    Except DeclarationError FilterPlan := do
  match ← FilterRole.ofMarks (field.marks .filter) with
  | .ignored => return plan
  | .leaf column => return { plan with leaves := plan.leaves ++ [⟨field.name, column⟩] }
  | .group junction =>
    if (plan.group? junction).isSome then .error (.repeatedGroup junction)
    else return plan.setGroup junction field.name

/-- The plan of a declared type. -/
def ofDeclaration (declaration : Declaration) : Except DeclarationError FilterPlan := do
  let fields ← declaration.namedFields .filter
  fields.foldlM addField {}

end FilterPlan

/-! ## Records -/

/-- What a field asks of a column. -/
inductive LeafOperators where
  /-- Any operators. -/
  | generic (set : OperatorSet)
  /-- The operators of a date column. -/
  | date (set : DateOperatorSet)
  deriving DecidableEq, Repr

/-- The operators with all operands read. -/
def LeafOperators.toGeneric : LeafOperators → Except QueryError OperatorSet
  | generic set => .ok set
  | date set => set.toGeneric

/-- A record that becomes a filter, by those of its fields that are set. The members of a group need
not be of the type of the record. -/
inductive FilterRecord where
  /-- The plan of the type, what fields ask of columns, and the members of groups. -/
  | record (plan : FilterPlan) (operators : List (String × LeafOperators))
      (groups : List (String × List FilterRecord))
  /-- A filter that is ready, which becomes itself. -/
  | ready (filter : Filter)
  deriving Repr

/-- The leaves of the fields that are set, in the order of their declaration. -/
def FilterPlan.leafFilters (operators : List (String × LeafOperators)) :
    List LeafField → Except QueryError (List Filter)
  | [] => .ok []
  | field :: rest => do
    let leaf ← match operators.lookup field.name with
      | none => pure none
      | some operators => (operators.toGeneric).map some
    let leaves ← leafFilters operators rest
    return (leaf.map (Filter.leaf field.column)).toList ++ leaves

namespace FilterRecord

mutual

/-- The filter of a record. -/
def toFilter : FilterRecord → Except QueryError Filter
  | .record plan operators groups => do
    let leaves ← FilterPlan.leafFilters operators plan.leaves
    let all ← groupFilters plan.all groups
    let any ← groupFilters plan.any groups
    return .group .all (leaves ++ Filter.groupOf .all all ++ Filter.groupOf .any any)
  | .ready filter => .ok filter

/-- The filters of the members that the field of a group holds. -/
def groupFilters (name : Option String) :
    List (String × List FilterRecord) → Except QueryError (List Filter)
  | [] => .ok []
  | (field, members) :: rest =>
    if some field = name then memberFilters members else groupFilters name rest

/-- The filters of some records. -/
def memberFilters : List FilterRecord → Except QueryError (List Filter)
  | [] => .ok []
  | member :: rest => do
    let filter ← toFilter member
    return filter :: (← memberFilters rest)

end

end FilterRecord

end TableQuery
