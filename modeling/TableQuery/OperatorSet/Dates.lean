import TableQuery.OperatorSet.Basic
import TableQuery.QueryError
import TableQuery.Time.Rfc3339

/-!
# Checked operands

Some operators accept only some kinds of operands. A pattern operator needs a text, and every
operator of a date column needs an instant or a text that denotes one. An error names the operator
that has the wrong operand; of several the first in the order of the operators is reported.

## Main definitions

* `textOperand`: the text of a pattern operator's operand.
* `dateOperand`: the instant of a date operator's operand.
* `DateOperatorSet.toGeneric`: a date operator set with all its operands read.
-/

namespace TableQuery

/-- The text of a pattern operator's operand. -/
def textOperand (operator : String) : Operand → Except QueryError String
  | .text value => .ok value
  | _ => .error (.notAString operator)

/-- The instant of a date operator's operand, read if it is a text. -/
def dateOperand (operator : String) : Operand → Except QueryError Operand
  | .text value =>
    match Time.Instant.ofText? value with
    | some instant => .ok (.timestamp instant)
    | none => .error (.invalidDate operator value)
  | .timestamp instant => .ok (.timestamp instant)
  | operand => .error (.unsupportedDateValue operator operand.kind)

@[simp] theorem dateOperand_timestamp (operator : String) (instant : Time.Instant) :
    dateOperand operator (.timestamp instant) = .ok (.timestamp instant) := rfl

/-- Every operand of a set changed in turn, comparisons first and then both lists; the first
failure ends it. The change is told the key of the operator. -/
def ValueOperators.mapM (change : String → Operand → Except QueryError Operand)
    (set : ValueOperators) : Except QueryError ValueOperators := do
  return {
    eq := ← set.eq.mapM (change "eq")
    notEq := ← set.notEq.mapM (change "notEq")
    gte := ← set.gte.mapM (change "gte")
    notGte := ← set.notGte.mapM (change "notGte")
    gt := ← set.gt.mapM (change "gt")
    notGt := ← set.notGt.mapM (change "notGt")
    lte := ← set.lte.mapM (change "lte")
    notLte := ← set.notLte.mapM (change "notLte")
    lt := ← set.lt.mapM (change "lt")
    notLt := ← set.notLt.mapM (change "notLt")
    oneOf := ← set.oneOf.mapM fun operands => operands.mapM (change "in")
    noneOf := ← set.noneOf.mapM fun operands => operands.mapM (change "notIn")
    isNull := set.isNull
    isNotNull := set.isNotNull }

/-- A date operator set with all its operands read, as a set for any column. -/
def DateOperatorSet.toGeneric (set : DateOperatorSet) : Except QueryError OperatorSet := do
  return { toValueOperators := ← set.toValueOperators.mapM dateOperand }

end TableQuery
