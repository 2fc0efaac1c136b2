import TableQuery.Condition
import TableQuery.OperatorSet.Dates

/-!
# Filters

A filter is a tree: its leaves ask something of one column, its inner nodes join their children.
It becomes a condition leaf by leaf. A leaf that asks for nothing, and a group whose children ask
for nothing, leave no trace in the condition, but a fault in any leaf refuses the whole filter.

## Main definitions

* `Filter`: the tree.
* `OperatorSet.atoms`: the conditions that an operator set asks of a column.
* `Filter.condition?`: the condition that a filter becomes, if it asks for anything.
-/

namespace TableQuery

/-- A tree of conditions on columns. -/
inductive Filter where
  /-- All operators of a set hold for a column. -/
  | leaf (column : String) (operators : OperatorSet)
  /-- All children hold, or any of them. -/
  | group (junction : Junction) (children : List Filter)
  deriving Repr

/-! ## Leaves -/

/-- How a comparison is decided. -/
def Comparison.comparator : Comparison → Comparator
  | eq => .equal
  | notEq => .notEqual
  | gte => .greaterEqual
  | notGte => .less
  | gt => .greater
  | notGt => .lessEqual
  | lte => .lessEqual
  | notLte => .greater
  | lt => .less
  | notLt => .greaterEqual

/-- The form that a case transform gives. -/
def CaseTransform.form : CaseTransform → Form
  | preserve => .plain
  | lower => .lower
  | upper => .upper

namespace OperatorSet

/-- The column in the form in which its equality and patterns are decided. -/
def term (set : OperatorSet) (column : Identifier) : Term := ⟨column, set.fieldCase.form⟩

/-- A value in the form in which equality with it is decided; case is changed in texts only. -/
def bound (set : OperatorSet) (operand : Operand) : Bound :=
  ⟨operand, if operand.isText then set.valueCase.form else .plain⟩

/-- Instants are compared as such, everything else as it is; case does not count. -/
def orderAtom (column : Identifier) (comparator : Comparator) (operand : Operand) : Atom :=
  if operand.isTimestamp then
    .compare ⟨column, .julianDay⟩ comparator ⟨operand, .julianDay⟩
  else .compare ⟨column, .plain⟩ comparator ⟨operand, .plain⟩

/-- Equality with null asks for null, equality with an instant compares instants, and any other
equality counts case as the set says. -/
def equalityAtom (set : OperatorSet) (column : Identifier) (negated : Bool) (operand : Operand) :
    Atom :=
  let comparator : Comparator := if negated then .notEqual else .equal
  match operand with
  | .null => .null (set.term column) negated
  | .timestamp _ => orderAtom column comparator operand
  | _ => .compare (set.term column) comparator (set.bound operand)

/-- The condition of a comparison. -/
def comparisonAtom (set : OperatorSet) (column : Identifier) (comparison : Comparison)
    (operand : Operand) : Atom :=
  match comparison with
  | .eq => set.equalityAtom column false operand
  | .notEq => set.equalityAtom column true operand
  | _ => orderAtom column comparison.comparator operand

/-- The condition of a pattern operator, whose operand has to be a text. -/
def patternAtom (set : OperatorSet) (column : Identifier) (pattern : Pattern) (operand : Operand) :
    Except QueryError Atom := do
  let text ← textOperand pattern.name operand
  return .like (set.term column) pattern.isNegated ⟨.text (pattern.apply text), set.valueCase.form⟩

/-- The condition of a list operator. Nothing is in an empty list, and everything is outside it.
Instants are compared as such only if the list holds nothing else. -/
def memberAtom? (set : OperatorSet) (column : Identifier) (negated : Bool)
    (operands : List Operand) : Option Atom :=
  if operands.isEmpty then (if negated then none else some .never)
  else if operands.all Operand.isTimestamp then
    some (.among ⟨column, .julianDay⟩ negated (operands.map fun operand => ⟨operand, .julianDay⟩))
  else some (.among (set.term column) negated (operands.map set.bound))

/-- The conditions that an operator set asks of a column, in the order of the operators. -/
def atoms (set : OperatorSet) (column : Identifier) : Except QueryError (List Atom) := do
  let comparisons := Comparison.all.filterMap fun comparison =>
    (set.comparison comparison).map (set.comparisonAtom column comparison)
  let patterns ← Pattern.all.mapM fun pattern =>
    (set.pattern pattern).mapM (set.patternAtom column pattern)
  let members := (set.oneOf.bind (set.memberAtom? column false)).toList ++
    (set.noneOf.bind (set.memberAtom? column true)).toList
  let nulls := (if set.isNull then [.null ⟨column, .plain⟩ false] else []) ++
    (if set.isNotNull then [.null ⟨column, .plain⟩ true] else [])
  return comparisons ++ patterns.filterMap id ++ members ++ nulls

end OperatorSet

/-! ## Trees -/

namespace Filter

/-- A group as a child, if it has members. -/
def groupOf (junction : Junction) (children : List Filter) : List Filter :=
  if children.isEmpty then [] else [group junction children]

mutual

/-- The condition that a filter becomes, if it asks for anything. -/
def condition? : Filter → Except QueryError (Option Condition)
  | leaf column operators => do
    let column ← Identifier.check column
    return Condition.join? .all ((← operators.atoms column).map Condition.atom)
  | group junction children => return Condition.join? junction (← conditions children)

/-- The conditions of those children that ask for anything. -/
def conditions : List Filter → Except QueryError (List Condition)
  | [] => return []
  | child :: rest => do
    let condition ← child.condition?
    return condition.toList ++ (← conditions rest)

end

/-- The condition of a filter that may be missing. -/
def conditionOf? (filter : Option Filter) : Except QueryError (Option Condition) :=
  match filter with
  | some filter => filter.condition?
  | none => return none

end Filter

end TableQuery
