import TableQuery.Condition
import TableQuery.Database.Affinity
import TableQuery.Database.JulianDay

/-!
# Formulas

What the database decides for each row. A formula is true, false, or undecided where a null leaves
it open; a row counts only where it is true.

## Main definitions

* `Truth`: the three values and their connectives.
* `Scalar`, `Formula`: expressions, with `Scalar.datum` and `Formula.truth`.
* `Condition.formula?`: the formula of a condition.
-/

namespace TableQuery

/-! ## Truth values -/

/-- True, false, or undecided. -/
abbrev Truth : Type := Option Bool

namespace Truth

/-- The opposite; what is undecided stays so. -/
def not (a : Truth) : Truth := a.map Bool.not

/-- Both; false as soon as one is false. -/
def and : Truth → Truth → Truth
  | some false, _ => some false
  | _, some false => some false
  | some true, some true => some true
  | _, _ => none

/-- One of both; true as soon as one is true. -/
def or : Truth → Truth → Truth
  | some true, _ => some true
  | _, some true => some true
  | some false, some false => some false
  | _, _ => none

/-- One of several. -/
def anyOf (truths : List Truth) : Truth := truths.foldr or (some false)

@[simp] theorem not_not (a : Truth) : not (not a) = a := by
  cases a <;> simp [not]

theorem and_eq_true_iff {a b : Truth} : and a b = some true ↔ a = some true ∧ b = some true := by
  rcases a with _ | _ | _ <;> rcases b with _ | _ | _ <;> simp [and]

theorem or_eq_true_iff {a b : Truth} : or a b = some true ↔ a = some true ∨ b = some true := by
  rcases a with _ | _ | _ <;> rcases b with _ | _ | _ <;> simp [or]

end Truth

/-! ## Expressions -/

/-- An expression whose value is a cell. -/
inductive Scalar where
  /-- A column. -/
  | column (name : String)
  /-- A value. -/
  | value (cell : Cell)
  /-- A text in lower case. -/
  | lower (argument : Scalar)
  /-- A text in upper case. -/
  | upper (argument : Scalar)
  /-- The moment of a date. -/
  | julianDay (argument : Scalar)
  deriving DecidableEq, Repr

/-- An expression that a row meets or not. -/
inductive Formula where
  /-- Two values compare. -/
  | compare (left : Scalar) (comparator : Comparator) (right : Scalar)
  /-- A text matches a pattern. -/
  | like (subject pattern : Scalar)
  /-- A value equals one of several. -/
  | among (subject : Scalar) (candidates : List Scalar)
  /-- Two values are equal, or both null. -/
  | same (left right : Scalar)
  /-- A number is not zero. -/
  | nonzero (argument : Scalar)
  /-- The opposite. -/
  | not (formula : Formula)
  /-- Both. -/
  | and (left right : Formula)
  /-- One of both. -/
  | or (left right : Formula)
  deriving Repr

/-! ## Evaluation -/

/-- The values of the columns of a row. -/
abbrev Scope : Type := String → Datum

/-- A text in lower case, as far as ASCII letters go. -/
def lowerText (text : String) : String := String.ofList (text.toList.map Char.toLower)

/-- A text in upper case, as far as ASCII letters go. -/
def upperText (text : String) : String := String.ofList (text.toList.map Char.toUpper)

/-- The moment of a value as a number of days, or null. -/
def momentCell (cell : Cell) : Cell :=
  match JulianDay.ofCell? cell with
  | some moment => .real (JulianDay.toDays moment)
  | none => .null

/-- The value of an expression in a row. Only a bare column has an affinity. -/
def Scalar.datum (scope : Scope) : Scalar → Datum
  | column name => scope name
  | value cell => { cell := cell }
  | lower argument => { cell := (argument.datum scope).cell.mapText lowerText }
  | upper argument => { cell := (argument.datum scope).cell.mapText upperText }
  | julianDay argument => { cell := momentCell (argument.datum scope).cell }

/-- Whether a comparison holds for values in a given order. -/
def Comparator.holds : Comparator → Ordering → Bool
  | equal, order => order.isEq
  | notEqual, order => order.isNe
  | less, order => order.isLT
  | lessEqual, order => order.isLE
  | greater, order => order.isGT
  | greaterEqual, order => order.isGE

/-- Whether two values compare. -/
def Comparator.decide (comparator : Comparator) (left right : Datum) : Truth :=
  (left.compare? right).map comparator.holds

/-- Whether a value matches a pattern by their texts. -/
def likeCells (subject pattern : Cell) : Truth := do
  let subject ← subject.text?
  let pattern ← pattern.text?
  return TableQuery.like pattern subject

/-- Whether two values are equal, where two nulls are. -/
def sameData (left right : Datum) : Bool :=
  match left.compare? right with
  | some order => order.isEq
  | none => left.cell.isNull && right.cell.isNull

/-- Whether a value counts as true. -/
def cellTruth (cell : Cell) : Truth :=
  if cell.isNull then none
  else
    match cell.toNumber with
    | .integer value => some (value ≠ 0)
    | .real value => some (value.significand ≠ 0)
    | _ => some false

/-- Whether a row meets a formula. The values of a list have no affinity, even those of columns. -/
def Formula.truth (scope : Scope) : Formula → Truth
  | compare left comparator right => comparator.decide (left.datum scope) (right.datum scope)
  | like subject pattern => likeCells (subject.datum scope).cell (pattern.datum scope).cell
  | among subject candidates =>
    let value := subject.datum scope
    Truth.anyOf <| candidates.map fun candidate =>
      Comparator.equal.decide value { cell := (candidate.datum scope).cell }
  | same left right => some (sameData (left.datum scope) (right.datum scope))
  | nonzero argument => cellTruth (argument.datum scope).cell
  | not formula => Truth.not (formula.truth scope)
  | and left right => Truth.and (left.truth scope) (right.truth scope)
  | or left right => Truth.or (left.truth scope) (right.truth scope)

/-! ## Columns -/

/-- The columns of an expression, from left to right. -/
def Scalar.columns : Scalar → List String
  | column name => [name]
  | value _ => []
  | lower argument => argument.columns
  | upper argument => argument.columns
  | julianDay argument => argument.columns

/-- The columns of a formula, from left to right. -/
def Formula.columns : Formula → List String
  | compare left _ right => left.columns ++ right.columns
  | like subject pattern => subject.columns ++ pattern.columns
  | among subject candidates => subject.columns ++ candidates.flatMap Scalar.columns
  | same left right => left.columns ++ right.columns
  | nonzero argument => argument.columns
  | not formula => formula.columns
  | and left right => left.columns ++ right.columns
  | or left right => left.columns ++ right.columns

/-! ## Conditions as formulas -/

/-- An expression in a form. -/
def Form.apply (form : Form) (argument : Scalar) : Scalar :=
  match form with
  | plain => argument
  | lower => .lower argument
  | upper => .upper argument
  | julianDay => .julianDay argument

/-- A term as an expression. -/
def Term.scalar (term : Term) : Scalar := term.form.apply (.column term.column.name)

/-- A bound value as an expression. -/
def Bound.scalar (bound : Bound) : Scalar := bound.form.apply (.value (.ofOperand bound.value))

/-- Bound values have no affinity, so that each one of a list compares as it does by itself. -/
theorem Formula.truth_among_bound (scope : Scope) (subject : Scalar) (bounds : List Bound) :
    (among subject (bounds.map Bound.scalar)).truth scope =
      Truth.anyOf (bounds.map fun bound => (compare subject .equal bound.scalar).truth scope) := by
  have hplain : ∀ bound : Bound,
      { cell := (bound.scalar.datum scope).cell } = bound.scalar.datum scope := by
    rintro ⟨operand, form⟩
    cases form <;> rfl
  rw [truth, List.map_map]
  refine congrArg Truth.anyOf (List.map_congr_left fun bound _ => ?_)
  rw [Function.comp_apply, hplain bound, truth]

/-- A formula, or its opposite. -/
def Formula.negateIf (negated : Bool) (formula : Formula) : Formula :=
  if negated then not formula else formula

/-- The formula that no row meets. -/
def Formula.never : Formula := compare (.value (.integer 1)) .equal (.value (.integer 0))

/-- An atom as a formula. -/
def Atom.formula : Atom → Formula
  | compare term comparator bound => .compare term.scalar comparator bound.scalar
  | like term negated bound => .negateIf negated (.like term.scalar bound.scalar)
  | among term negated bounds =>
    .negateIf negated (.among term.scalar (bounds.map Bound.scalar))
  | null term negated => .negateIf negated (.same term.scalar (.value .null))
  | never => .never

/-- Two formulas joined. -/
def Junction.formula (junction : Junction) (left right : Formula) : Formula :=
  match junction with
  | all => .and left right
  | any => .or left right

namespace Condition

mutual

/-- The formula of a condition, where that of a given fragment is known. -/
def formula? (fragment? : String → List Operand → Option Formula) : Condition → Option Formula
  | .atom content => some content.formula
  | fragment text values => fragment? text values
  | joined junction first second rest => do
    let first ← formula? fragment? first
    let second ← formula? fragment? second
    formulaRest? fragment? junction (junction.formula first second) rest

/-- A formula joined with the formulas of further conditions. -/
def formulaRest? (fragment? : String → List Operand → Option Formula) (junction : Junction)
    (left : Formula) : List Condition → Option Formula
  | [] => some left
  | part :: rest => do
    let right ← formula? fragment? part
    formulaRest? fragment? junction (junction.formula left right) rest

end

end Condition

end TableQuery
