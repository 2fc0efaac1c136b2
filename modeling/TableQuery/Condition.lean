import TableQuery.Identifier
import TableQuery.Operand

/-!
# Conditions

A condition on the rows of a table: what a filter becomes, and what stands after `WHERE`. A
condition holds its values; its text holds a placeholder for each of them, in the same order, so
no value ever becomes part of a text.

Conditions joined by `AND` or `OR` are at least two. Inside another join they stand in
parentheses, and nothing else does.

## Main definitions

* `Form`: how a column or a value enters a condition.
* `Atom`: a condition on one column, with `Atom.sql` and `Atom.values`.
* `Condition`: atoms, given fragments, and joins, with `sql`, `grouped` and `values`.
* `Condition.join?`: any number of conditions as one.
-/

namespace TableQuery

/-! ## Atoms -/

/-- How a column or a value enters a condition. -/
inductive Form where
  /-- As it is. -/
  | plain
  /-- In lower case. -/
  | lower
  /-- In upper case. -/
  | upper
  /-- As an instant. -/
  | julianDay
  deriving DecidableEq, Repr

/-- An expression in a form. -/
def Form.wrap (form : Form) (expression : String) : String :=
  match form with
  | plain => expression
  | lower => "lower(" ++ expression ++ ")"
  | upper => "upper(" ++ expression ++ ")"
  | julianDay => "julianday(" ++ expression ++ ")"

/-- The ways to compare two values. -/
inductive Comparator where
  | equal | notEqual | less | lessEqual | greater | greaterEqual
  deriving DecidableEq, Repr

/-- How a comparison is written. -/
def Comparator.sql : Comparator → String
  | equal => "="
  | notEqual => "<>"
  | less => "<"
  | lessEqual => "<="
  | greater => ">"
  | greaterEqual => ">="

/-- A column in the form in which it is compared. -/
structure Term where
  /-- The column. -/
  column : Identifier
  /-- Its form. -/
  form : Form := .plain
  deriving DecidableEq, Repr

/-- The text of a term. -/
def Term.sql (term : Term) : String := term.form.wrap term.column.name

/-- A bound value in the form in which it is compared. -/
structure Bound where
  /-- The value. -/
  value : Operand
  /-- Its form. -/
  form : Form := .plain
  deriving DecidableEq, Repr

/-- The text that stands for a bound value. -/
def Bound.sql (bound : Bound) : String := bound.form.wrap "?"

/-- A condition on one column. -/
inductive Atom where
  /-- The column compares with a value. -/
  | compare (term : Term) (comparator : Comparator) (bound : Bound)
  /-- The column matches a pattern, or does not. -/
  | like (term : Term) (negated : Bool) (bound : Bound)
  /-- The column is among some values, or is not. -/
  | among (term : Term) (negated : Bool) (bounds : List Bound)
  /-- The column is null, or is not. -/
  | null (term : Term) (negated : Bool)
  /-- No row meets this condition. -/
  | never
  deriving DecidableEq, Repr

namespace Atom

/-- The text of an atom. -/
def sql : Atom → String
  | compare term comparator bound => term.sql ++ " " ++ comparator.sql ++ " " ++ bound.sql
  | like term negated bound =>
    term.sql ++ (if negated then " NOT LIKE " else " LIKE ") ++ bound.sql
  | among term negated bounds =>
    term.sql ++ (if negated then " NOT IN (" else " IN (") ++
      ", ".intercalate (bounds.map Bound.sql) ++ ")"
  | null term negated => term.sql ++ (if negated then " IS NOT NULL" else " IS NULL")
  | never => "1 = 0"

/-- The values of an atom, in the order of their placeholders. -/
def values : Atom → List Operand
  | compare _ _ bound => [bound.value]
  | like _ _ bound => [bound.value]
  | among _ _ bounds => bounds.map Bound.value
  | null _ _ => []
  | never => []

end Atom

/-! ## Joins -/

/-- How conditions are joined. -/
inductive Junction where
  /-- All of them hold. -/
  | all
  /-- One of them holds. -/
  | any
  deriving DecidableEq, Repr

/-- What stands between joined conditions. -/
def Junction.separator : Junction → String
  | all => " AND "
  | any => " OR "

/-- A condition on the rows of a table. -/
inductive Condition where
  /-- A condition on one column. -/
  | atom (content : Atom)
  /-- A trusted text with the values of its placeholders. -/
  | fragment (text : String) (values : List Operand)
  /-- Two or more conditions joined. -/
  | joined (junction : Junction) (first second : Condition) (rest : List Condition)
  deriving Repr

namespace Condition

/-- Whether a condition joins others at its top level. -/
def isJoined : Condition → Bool
  | joined .. => true
  | _ => false

/-- A text in parentheses, if it has to stand in them. -/
def parenthesize (needed : Bool) (text : String) : String :=
  if needed then "(" ++ text ++ ")" else text

mutual

/-- The text of a condition. -/
def sql : Condition → String
  | .atom content => content.sql
  | fragment text _ => text
  | joined junction first second rest =>
    parenthesize first.isJoined first.sql ++ junction.separator ++
      parenthesize second.isJoined second.sql ++ sqlRest junction rest

/-- The text of further joined conditions, each after its separator. -/
def sqlRest (junction : Junction) : List Condition → String
  | [] => ""
  | part :: rest =>
    junction.separator ++ parenthesize part.isJoined part.sql ++ sqlRest junction rest

end

mutual

/-- The values of a condition, in the order of their placeholders. -/
def values : Condition → List Operand
  | .atom content => content.values
  | fragment _ values => values
  | joined _ first second rest => first.values ++ second.values ++ valuesRest rest

/-- The values of further joined conditions. -/
def valuesRest : List Condition → List Operand
  | [] => []
  | part :: rest => part.values ++ valuesRest rest

end

/-- The text of a condition as a part of another one. -/
def grouped (condition : Condition) : String := parenthesize condition.isJoined condition.sql

/-- Conditions joined into one; of a single one that is itself, of none there is none. -/
def join? (junction : Junction) : List Condition → Option Condition
  | [] => none
  | [condition] => some condition
  | first :: second :: rest => some (joined junction first second rest)

@[simp] theorem join?_nil (junction : Junction) : join? junction [] = none := rfl

@[simp] theorem join?_singleton (junction : Junction) (condition : Condition) :
    join? junction [condition] = some condition := rfl

theorem join?_eq_none_iff {junction : Junction} {conditions : List Condition} :
    join? junction conditions = none ↔ conditions = [] := by
  match conditions with
  | [] => simp
  | [_] => simp
  | _ :: _ :: _ => simp [join?]

@[simp] theorem valuesRest_eq_flatMap (conditions : List Condition) :
    valuesRest conditions = conditions.flatMap values := by
  induction conditions with
  | nil => rfl
  | cons part rest ih => simp [valuesRest, ih]

/-- Joining keeps the values in the order of the conditions. -/
theorem values_of_join? {junction : Junction} {conditions : List Condition} {result : Condition}
    (h : join? junction conditions = some result) : result.values = conditions.flatMap values := by
  match conditions with
  | [] => simp at h
  | [_] => simp_all
  | _ :: _ :: _ =>
    simp only [join?, Option.some.injEq] at h
    simp [← h, values]

/-- Conditions written one after another in a join. -/
theorem sqlRest_eq_join (junction : Junction) (conditions : List Condition) :
    sqlRest junction conditions =
      String.join (conditions.map fun part => junction.separator ++ part.grouped) := by
  induction conditions with
  | nil => rfl
  | cons part rest ih => simp [sqlRest, ih, grouped]

end Condition

end TableQuery
