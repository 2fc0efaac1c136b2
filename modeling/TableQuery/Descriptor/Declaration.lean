import TableQuery.Condition

/-!
# Declarations

The declaration of a record type whose fields carry attributes. From it the plans are derived by
which records of the type filter, sort or choose columns. An attribute has a name and a list of
items, each a key that may have a value: `#[filter(column = "title")]`. Only the attributes named
for a plan count for it, their items from left to right over all of them.

## Main definitions

* `Declaration`: a declared type.
* `DeclarationError`: why no plan can be derived, with its wording.
* `PlanKind`: the three kinds of plans.
* `FieldDeclaration.marks`: what a field says about a plan.
-/

namespace TableQuery

/-! ## Declared types -/

/-- The value of an attribute's item. -/
inductive ItemValue where
  /-- A text. -/
  | text (value : String)
  /-- A number or a truth value. -/
  | literal
  deriving DecidableEq, Repr

/-- An item of an attribute. -/
structure AttributeItem where
  /-- The key. -/
  key : String
  /-- The value, if the key has one. -/
  value : Option ItemValue := none
  deriving DecidableEq, Repr

/-- An attribute of a field. -/
structure Attribute where
  /-- The name. -/
  name : String
  /-- The items; a bare attribute has no list of them. -/
  items : Option (List AttributeItem) := none
  deriving DecidableEq, Repr

/-- A field of a declared type. -/
structure FieldDeclaration where
  /-- The name. -/
  name : String
  /-- The type, as it is written. -/
  type : String
  /-- The attributes. -/
  attributes : List Attribute := []
  deriving DecidableEq, Repr

/-- What a type is declared as. -/
inductive Shape where
  /-- A record of named fields. -/
  | record
  /-- A record of fields without names. -/
  | tuple
  /-- A record without fields. -/
  | unit
  /-- A choice of cases. -/
  | enumeration
  /-- Fields that share their storage. -/
  | union
  deriving DecidableEq, Repr

/-- A declared type. -/
structure Declaration where
  /-- What it is declared as. -/
  shape : Shape := .record
  /-- The fields. -/
  fields : List FieldDeclaration
  deriving DecidableEq, Repr

/-! ## Plans -/

/-- The kinds of plans that a declaration gives. -/
inductive PlanKind where
  /-- How records become filters. -/
  | filter
  /-- How records become sorts. -/
  | sort
  /-- How records choose columns. -/
  | projection
  deriving DecidableEq, Repr

namespace PlanKind

/-- The name of the attributes that count. -/
def attributeName : PlanKind → String
  | filter => "filter"
  | sort => "sort"
  | projection => "projection"

/-- The name under which a plan is asked for. -/
def deriveName : PlanKind → String
  | filter => "FilterInput"
  | sort => "SortInput"
  | projection => "Projection"

/-- The items that an attribute may have. -/
def itemsText : PlanKind → String
  | filter => "`column = \"...\"`, `and` or `or`"
  | sort => "`column = \"...\"`"
  | projection => "`alias = \"...\"` or `column = \"...\"`"

end PlanKind

/-! ## Errors -/

/-- The key of a group in an attribute. -/
def Junction.key : Junction → String
  | all => "and"
  | any => "or"

/-- Why a declaration gives no plan. -/
inductive DeclarationError where
  /-- The type is no record. -/
  | notARecord (kind : PlanKind)
  /-- The fields of the type have no names. -/
  | unnamedFields (kind : PlanKind)
  /-- An attribute has no list of items. -/
  | bareAttribute (kind : PlanKind)
  /-- A key that needs a value has none. -/
  | missingValue
  /-- A value is no text. -/
  | notAText
  /-- A key that takes no value has one. -/
  | unexpectedValue
  /-- A column is the empty text. -/
  | emptyColumn
  /-- A field has several keys where it takes one. -/
  | severalKeys
  /-- A key is not among those of its attribute. -/
  | unknownKey (kind : PlanKind)
  /-- Several fields are the same group. -/
  | repeatedGroup (junction : Junction)
  /-- A field is no flag. -/
  | notAFlag
  deriving DecidableEq, Repr

/-- The wording of an error. -/
def DeclarationError.message : DeclarationError → String
  | notARecord kind => s!"{kind.deriveName} can only be derived for structs"
  | unnamedFields kind => s!"{kind.deriveName} requires a struct with named fields"
  | bareAttribute kind =>
    s!"expected attribute arguments in parentheses: #[{kind.attributeName}(...)]"
  | missingValue => "expected `=`"
  | notAText => "expected string literal"
  | unexpectedValue => "expected `,`"
  | emptyColumn => "column must not be empty"
  | severalKeys => "a field takes only one of `column`, `and` or `or`"
  | unknownKey kind => s!"expected {kind.itemsText}"
  | repeatedGroup junction => s!"only one #[filter({junction.key})] field is allowed"
  | notAFlag => "field must be a boolean"

/-! ## Reading declarations -/

/-- The fields of a declaration, which has to be a record of named fields. -/
def Declaration.namedFields (declaration : Declaration) (kind : PlanKind) :
    Except DeclarationError (List FieldDeclaration) :=
  match declaration.shape with
  | .record => .ok declaration.fields
  | .tuple => .error (.unnamedFields kind)
  | .unit => .error (.unnamedFields kind)
  | .enumeration => .error (.notARecord kind)
  | .union => .error (.notARecord kind)

/-- What a field says about a plan. -/
inductive Mark where
  /-- An attribute without a list of items. -/
  | bare
  /-- An item. -/
  | item (content : AttributeItem)
  deriving DecidableEq, Repr

/-- The marks of an attribute. -/
def Attribute.marks (given : Attribute) : List Mark :=
  match given.items with
  | none => [.bare]
  | some items => items.map .item

/-- The attributes of a field that count for a plan. -/
def FieldDeclaration.attributesOf (field : FieldDeclaration) (kind : PlanKind) : List Attribute :=
  field.attributes.filter fun given => given.name = kind.attributeName

/-- The marks of a field that count for a plan, from left to right. -/
def FieldDeclaration.marks (field : FieldDeclaration) (kind : PlanKind) : List Mark :=
  (field.attributesOf kind).flatMap Attribute.marks

/-- The text that a key needs as its value. -/
def AttributeItem.textValue (item : AttributeItem) : Except DeclarationError String :=
  match item.value with
  | none => .error .missingValue
  | some .literal => .error .notAText
  | some (.text value) => .ok value

/-- The column that a key names. -/
def AttributeItem.columnValue (item : AttributeItem) : Except DeclarationError String := do
  let column ← item.textValue
  if column.isEmpty then .error .emptyColumn else .ok column

/-- The column that stands for no column. -/
def ignoredColumn : String := "-"

/-- The key of a column. -/
def columnKey : String := "column"

/-- The key of aliases. -/
def aliasKey : String := "alias"

end TableQuery
