import TableQuery.Operand

/-!
# Operator sets

What a client asks of one column: any of the operators below, each with its operand, all of which
have to hold. Date columns know the comparisons, membership and null checks only.

## Main definitions

* `Comparison`, `Pattern`, `CaseFlag`: the operators by name.
* `OperatorSet`: the operators present in a filter field, with their operands.
* `DateOperatorSet`: the same for a date column.
* `CaseTransform`: how case modifiers change a column or a text before they are compared.
-/

namespace TableQuery

/-! ## Operators -/

/-- The operators that compare a column with one value. -/
inductive Comparison where
  | eq | notEq | gte | notGte | gt | notGt | lte | notLte | lt | notLt
  deriving DecidableEq, Repr

namespace Comparison

/-- All comparisons, in the order in which their conditions are written. -/
def all : List Comparison := [eq, notEq, gte, notGte, gt, notGt, lte, notLte, lt, notLt]

/-- The key of a comparison. -/
def name : Comparison → String
  | eq => "eq"
  | notEq => "notEq"
  | gte => "gte"
  | notGte => "notGte"
  | gt => "gt"
  | notGt => "notGt"
  | lte => "lte"
  | notLte => "notLte"
  | lt => "lt"
  | notLt => "notLt"

theorem mem_all (comparison : Comparison) : comparison ∈ all := by
  cases comparison <;> simp [all]

end Comparison

/-- The operators that match a column against a text. -/
inductive Pattern where
  | contains | notContains | startsWith | notStartsWith | endsWith | notEndsWith
  deriving DecidableEq, Repr

namespace Pattern

/-- All pattern operators, in the order in which their conditions are written. -/
def all : List Pattern :=
  [contains, notContains, startsWith, notStartsWith, endsWith, notEndsWith]

/-- The key of a pattern operator. -/
def name : Pattern → String
  | contains => "contains"
  | notContains => "notContains"
  | startsWith => "startsWith"
  | notStartsWith => "notStartsWith"
  | endsWith => "endsWith"
  | notEndsWith => "notEndsWith"

/-- Whether an operator asks for texts that do not match. -/
def isNegated : Pattern → Bool
  | notContains | notStartsWith | notEndsWith => true
  | contains | startsWith | endsWith => false

/-- The pattern that a text becomes, where `%` stands for any run of characters. -/
def apply (pattern : Pattern) (text : String) : String :=
  match pattern with
  | contains | notContains => "%" ++ text ++ "%"
  | startsWith | notStartsWith => text ++ "%"
  | endsWith | notEndsWith => "%" ++ text

theorem mem_all (pattern : Pattern) : pattern ∈ all := by
  cases pattern <;> simp [all]

end Pattern

/-- The flags that change how case counts. -/
inductive CaseFlag where
  | fieldUppercase | fieldLowercase | valueUppercase | valueLowercase | caseInsensitive
  deriving DecidableEq, Repr

namespace CaseFlag

/-- All case flags. -/
def all : List CaseFlag :=
  [fieldUppercase, fieldLowercase, valueUppercase, valueLowercase, caseInsensitive]

/-- The key of a case flag. -/
def name : CaseFlag → String
  | fieldUppercase => "fieldUppercase"
  | fieldLowercase => "fieldLowercase"
  | valueUppercase => "valueUppercase"
  | valueLowercase => "valueLowercase"
  | caseInsensitive => "caseInsensitive"

end CaseFlag

/-! ## Sets -/

/-- The operators that every column knows, with their operands. -/
structure ValueOperators where
  /-- Equal to. -/
  eq : Option Operand := none
  /-- Not equal to. -/
  notEq : Option Operand := none
  /-- At least. -/
  gte : Option Operand := none
  /-- Not at least. -/
  notGte : Option Operand := none
  /-- Greater than. -/
  gt : Option Operand := none
  /-- Not greater than. -/
  notGt : Option Operand := none
  /-- At most. -/
  lte : Option Operand := none
  /-- Not at most. -/
  notLte : Option Operand := none
  /-- Less than. -/
  lt : Option Operand := none
  /-- Not less than. -/
  notLt : Option Operand := none
  /-- Equal to one of a list. -/
  oneOf : Option (List Operand) := none
  /-- Equal to none of a list. -/
  noneOf : Option (List Operand) := none
  /-- Null. -/
  isNull : Bool := false
  /-- Not null. -/
  isNotNull : Bool := false
  deriving DecidableEq, Repr

/-- The operators of a field over a date column. -/
structure DateOperatorSet extends ValueOperators where
  deriving DecidableEq, Repr

/-- The operators of a field over any column. -/
structure OperatorSet extends ValueOperators where
  /-- Contains a text. -/
  contains : Option Operand := none
  /-- Does not contain a text. -/
  notContains : Option Operand := none
  /-- Starts with a text. -/
  startsWith : Option Operand := none
  /-- Does not start with a text. -/
  notStartsWith : Option Operand := none
  /-- Ends with a text. -/
  endsWith : Option Operand := none
  /-- Does not end with a text. -/
  notEndsWith : Option Operand := none
  /-- Compare the column in upper case. -/
  fieldUppercase : Bool := false
  /-- Compare the column in lower case. -/
  fieldLowercase : Bool := false
  /-- Compare texts in upper case. -/
  valueUppercase : Bool := false
  /-- Compare texts in lower case. -/
  valueLowercase : Bool := false
  /-- Compare both in lower case. -/
  caseInsensitive : Bool := false
  deriving DecidableEq, Repr

namespace ValueOperators

/-- The operand of a comparison, if it is present. -/
def comparison (set : ValueOperators) : Comparison → Option Operand
  | .eq => set.eq
  | .notEq => set.notEq
  | .gte => set.gte
  | .notGte => set.notGte
  | .gt => set.gt
  | .notGt => set.notGt
  | .lte => set.lte
  | .notLte => set.notLte
  | .lt => set.lt
  | .notLt => set.notLt

/-- The set with another operand for a comparison. -/
def setComparison (set : ValueOperators) (comparison : Comparison) (operand : Option Operand) :
    ValueOperators :=
  match comparison with
  | .eq => { set with eq := operand }
  | .notEq => { set with notEq := operand }
  | .gte => { set with gte := operand }
  | .notGte => { set with notGte := operand }
  | .gt => { set with gt := operand }
  | .notGt => { set with notGt := operand }
  | .lte => { set with lte := operand }
  | .notLte => { set with notLte := operand }
  | .lt => { set with lt := operand }
  | .notLt => { set with notLt := operand }

/-- Whether no operator is present. -/
def isEmpty (set : ValueOperators) : Bool :=
  (Comparison.all.all fun comparison => (set.comparison comparison).isNone) &&
    set.oneOf.isNone && set.noneOf.isNone && !set.isNull && !set.isNotNull

@[simp] theorem comparison_setComparison (set : ValueOperators) (comparison other : Comparison)
    (operand : Option Operand) :
    (set.setComparison comparison operand).comparison other =
      if other = comparison then operand else set.comparison other := by
  cases comparison <;> cases other <;> rfl

end ValueOperators

/-! ## Case -/

/-- How a column or a text is changed before it is compared. -/
inductive CaseTransform where
  /-- Not at all. -/
  | preserve
  /-- Into lower case. -/
  | lower
  /-- Into upper case. -/
  | upper
  deriving DecidableEq, Repr

/-- Lower case wins where both are asked for. -/
def CaseTransform.ofFlags (lowercase uppercase : Bool) : CaseTransform :=
  if lowercase then lower else if uppercase then upper else preserve

namespace OperatorSet

/-- The operand of a pattern operator, if it is present. -/
def pattern (set : OperatorSet) : Pattern → Option Operand
  | .contains => set.contains
  | .notContains => set.notContains
  | .startsWith => set.startsWith
  | .notStartsWith => set.notStartsWith
  | .endsWith => set.endsWith
  | .notEndsWith => set.notEndsWith

/-- The set with another operand for a pattern operator. -/
def setPattern (set : OperatorSet) (pattern : Pattern) (operand : Option Operand) : OperatorSet :=
  match pattern with
  | .contains => { set with contains := operand }
  | .notContains => { set with notContains := operand }
  | .startsWith => { set with startsWith := operand }
  | .notStartsWith => { set with notStartsWith := operand }
  | .endsWith => { set with endsWith := operand }
  | .notEndsWith => { set with notEndsWith := operand }

/-- Whether a case flag is set. -/
def flag (set : OperatorSet) : CaseFlag → Bool
  | .fieldUppercase => set.fieldUppercase
  | .fieldLowercase => set.fieldLowercase
  | .valueUppercase => set.valueUppercase
  | .valueLowercase => set.valueLowercase
  | .caseInsensitive => set.caseInsensitive

/-- The set with another value for a case flag. -/
def setFlag (set : OperatorSet) (flag : CaseFlag) (value : Bool) : OperatorSet :=
  match flag with
  | .fieldUppercase => { set with fieldUppercase := value }
  | .fieldLowercase => { set with fieldLowercase := value }
  | .valueUppercase => { set with valueUppercase := value }
  | .valueLowercase => { set with valueLowercase := value }
  | .caseInsensitive => { set with caseInsensitive := value }

@[simp] theorem pattern_setPattern (set : OperatorSet) (pattern other : Pattern)
    (operand : Option Operand) :
    (set.setPattern pattern operand).pattern other =
      if other = pattern then operand else set.pattern other := by
  cases pattern <;> cases other <;> rfl

@[simp] theorem flag_setFlag (set : OperatorSet) (flag other : CaseFlag) (value : Bool) :
    (set.setFlag flag value).flag other = if other = flag then value else set.flag other := by
  cases flag <;> cases other <;> rfl

/-- Whether no operator is present; case flags alone ask for nothing. -/
def isEmpty (set : OperatorSet) : Bool :=
  set.toValueOperators.isEmpty && Pattern.all.all fun pattern => (set.pattern pattern).isNone

/-- How the column is changed before it is compared. -/
def fieldCase (set : OperatorSet) : CaseTransform :=
  .ofFlags (set.fieldLowercase || set.caseInsensitive) set.fieldUppercase

/-- How a text operand is changed before it is compared. -/
def valueCase (set : OperatorSet) : CaseTransform :=
  .ofFlags (set.valueLowercase || set.caseInsensitive) set.valueUppercase

/-! ## Sets of one operator -/

/-- Asks for one comparison. -/
def ofComparison (comparison : Comparison) (operand : Operand) : OperatorSet :=
  { toValueOperators := ValueOperators.setComparison {} comparison (some operand) }

/-- Asks for one pattern. -/
def ofPattern (pattern : Pattern) (operand : Operand) : OperatorSet :=
  setPattern {} pattern (some operand)

/-- Asks for one of a list. -/
def ofOneOf (operands : List Operand) : OperatorSet := { oneOf := some operands }

/-- Asks for none of a list. -/
def ofNoneOf (operands : List Operand) : OperatorSet := { noneOf := some operands }

/-- Asks for null. -/
def ofNull : OperatorSet := { isNull := true }

/-- Asks for anything but null. -/
def ofNotNull : OperatorSet := { isNotNull := true }

/-- Compares without regard to case. -/
def ignoringCase (set : OperatorSet) : OperatorSet := { set with caseInsensitive := true }

end OperatorSet

namespace DateOperatorSet

/-- Asks for one instant. -/
def sameInstant (operand : Operand) : DateOperatorSet := { eq := some operand }

/-- Asks for anything before an instant. -/
def before (operand : Operand) : DateOperatorSet := { lt := some operand }

/-- Asks for anything after an instant. -/
def after (operand : Operand) : DateOperatorSet := { gt := some operand }

/-- Asks for anything from one instant to another, both included. -/
def between (first last : Operand) : DateOperatorSet := { gte := some first, lte := some last }

end DateOperatorSet

end TableQuery
