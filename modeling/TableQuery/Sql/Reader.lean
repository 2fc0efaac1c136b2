import TableQuery.Database.Formula
import TableQuery.Sql.Token

/-!
# Reading conditions

The formula that the text of a condition denotes. Comparisons bind tightest, then `NOT`, then
`AND`, then `OR`; parentheses override. The tokens are read from left to right: each open
parenthesis has a frame that holds what has been joined in it so far. Which tokens make a comparison
is left to a dialect; the standard one has what conditions are compiled to, and a little more.

## Main definitions

* `Sql.readScalar`, `Sql.readPredicate`: values and comparisons.
* `Sql.Dialect`: what comparisons are and what is made of them; `Sql.Dialect.standard`.
* `Sql.Frame`, `Sql.step`: joining them.
* `Sql.readFormula`: the formula of a text with values for its placeholders.
-/

namespace TableQuery.Sql

/-! ## Values -/

/-- Keywords that name no column. -/
def reserved : List String :=
  ["AND", "OR", "NOT", "IN", "IS", "LIKE", "BETWEEN", "ISNULL", "NOTNULL"]

/-- Whether a word is a keyword that names no column. -/
def isReserved (word : String) : Bool :=
  reserved.contains (String.ofList (word.toList.map Char.toUpper))

/-- The value or column that a word denotes. -/
def wordScalar? (word : String) : Option Scalar :=
  if isReserved word then none
  else match String.ofList (word.toList.map Char.toUpper) with
    | "NULL" => some (.value .null)
    | "TRUE" => some (.value (.integer 1))
    | "FALSE" => some (.value (.integer 0))
    | _ => some (.column word)

/-- The column of a table that two words denote. -/
def qualifiedScalar? (table column : String) : Option Scalar :=
  if isReserved table || isReserved column then none
  else some (.column (table ++ "." ++ column))

/-- The function that a word denotes. -/
def function? (word : String) : Option (Scalar → Scalar) :=
  match String.ofList (word.toList.map Char.toLower) with
  | "lower" => some .lower
  | "upper" => some .upper
  | "julianday" => some .julianDay
  | _ => none

/-- A number with the opposite sign. -/
def negative : Cell → Cell
  | .integer value => .integer (-value)
  | .real value => .real ⟨value.bits ^^^ 0x8000000000000000⟩
  | cell => cell

/-- Reads an expression whose value is a cell. -/
def readScalar : List Token → Option (Scalar × List Token)
  | .word word :: .sign "(" :: rest => do
    let function ← function? word
    match ← readScalar rest with
    | (argument, .sign ")" :: rest) => some (function argument, rest)
    | _ => none
  | .word table :: .sign "." :: .word column :: rest =>
    (qualifiedScalar? table column).map fun scalar => (scalar, rest)
  | .word word :: rest => (wordScalar? word).map fun scalar => (scalar, rest)
  | .name column :: rest => some (.column column, rest)
  | .value cell :: rest => some (.value cell, rest)
  | .sign "-" :: .value cell :: rest => some (.value (negative cell), rest)
  | .sign "+" :: .value cell :: rest => some (.value cell, rest)
  | _ => none

/-- Reads an expression that is all there is. -/
def scalarOf? (tokens : List Token) : Option Scalar :=
  match readScalar tokens with
  | some (scalar, []) => some scalar
  | _ => none

/-! ## Comparisons -/

/-- The comparator that a sign denotes. -/
def comparator? : String → Option Comparator
  | "=" => some .equal
  | "<>" => some .notEqual
  | "<" => some .less
  | "<=" => some .lessEqual
  | ">" => some .greater
  | ">=" => some .greaterEqual
  | _ => none

/-- The parts of a list between commas outside of parentheses. -/
def splitCommas : Nat → List Token → List (List Token)
  | _, [] => [[]]
  | depth, token :: rest =>
    if depth = 0 && token = .sign "," then [] :: splitCommas depth rest
    else
      let depth := if token = .sign "(" then depth + 1
        else if token = .sign ")" then depth - 1 else depth
      match splitCommas depth rest with
      | part :: parts => (token :: part) :: parts
      | [] => [[token]]

/-- The values of a list in parentheses. -/
def listOf? : List Token → Option (List Scalar)
  | [.sign "(", .sign ")"] => some []
  | .sign "(" :: rest =>
    if rest.getLast? = some (.sign ")") then (splitCommas 0 rest.dropLast).mapM scalarOf? else none
  | _ => none

/-- The two limits of a range. -/
def rangeOf? (tokens : List Token) : Option (Scalar × Scalar) :=
  match readScalar tokens with
  | some (first, joint :: rest) =>
    if joint.isKeyword "AND" then (scalarOf? rest).map fun last => (first, last) else none
  | _ => none

/-- The formula of an operator that is a word, which may be negated. -/
def readWordOperator (subject : Scalar) (keyword : String) (rest : List Token) : Option Formula :=
  match keyword with
  | "LIKE" => (scalarOf? rest).map (Formula.like subject)
  | "IN" => (listOf? rest).map (Formula.among subject)
  | "BETWEEN" => (rangeOf? rest).map fun (first, last) =>
      .and (.compare subject .greaterEqual first) (.compare subject .lessEqual last)
  | _ => none

/-- The formula that a value counts as true, or as false. A null counts as neither. -/
def countsAs (subject : Scalar) (truth : Bool) : Formula :=
  .and (.not (.same subject (.value .null))) (.negateIf (!truth) (.nonzero subject))

/-- The formula of what follows `IS`. The words for truth ask what a value counts as. -/
def readIs (subject : Scalar) (tokens : List Token) : Option Formula :=
  match tokens.map Token.keyword? with
  | [some "TRUE"] => some (countsAs subject true)
  | [some "FALSE"] => some (countsAs subject false)
  | _ => (scalarOf? tokens).map (Formula.same subject)

/-- The formula of what follows `IS`, which may be negated. -/
def readIsOrNot (subject : Scalar) : List Token → Option Formula
  | token :: rest =>
    if token.isKeyword "NOT" then (readIs subject rest).map .not
    else readIs subject (token :: rest)
  | [] => none

/-- The formula of what follows a value. -/
def readOperator (subject : Scalar) : List Token → Option Formula
  | [] => some (.nonzero subject)
  | .sign text :: rest => do
    return .compare subject (← comparator? text) (← scalarOf? rest)
  | token :: rest => do
    match ← token.keyword?, rest with
    | "ISNULL", [] => some (.same subject (.value .null))
    | "NOTNULL", [] => some (.not (.same subject (.value .null)))
    | "IS", rest => readIsOrNot subject rest
    | "NOT", next :: rest =>
      match ← next.keyword?, rest with
      | "NULL", [] => some (.not (.same subject (.value .null)))
      | keyword, rest => (readWordOperator subject keyword rest).map .not
    | keyword, rest => readWordOperator subject keyword rest

/-- The formula of a comparison. -/
def readPredicate (tokens : List Token) : Option Formula := do
  let (subject, rest) ← readScalar tokens
  readOperator subject rest

/-! ## Joins -/

/-- A language of conditions: which tokens are comparisons, and what becomes of those that are
negated and joined. -/
structure Dialect (F : Type) where
  /-- The formula of a comparison. -/
  comparison : List Token → Option F
  /-- The opposite of a formula. -/
  not : F → F
  /-- Two formulas joined. -/
  join : Junction → F → F → F

/-- The language that is read here. -/
def Dialect.standard : Dialect Formula where
  comparison := readPredicate
  not := .not
  join := Junction.formula

/-- What has been read inside a pair of parentheses. -/
structure Frame (F : Type) where
  /-- The formulas before the last `OR`, joined. -/
  disjunction : Option F := none
  /-- The formulas since then and before the last `AND`, joined. -/
  conjunction : Option F := none
  /-- The number of times the next formula is negated. -/
  negations : Nat := 0
  /-- The formula in parentheses that has been read since then. -/
  group : Option F := none
  /-- The tokens of the comparison that has been begun since then, the last one first. -/
  comparison : List Token := []
  /-- The number of parentheses that are open in the comparison. -/
  depth : Nat := 0
  /-- Whether the next `AND` belongs to the comparison. -/
  inRange : Bool := false

section Reading

variable {F : Type} (dialect : Dialect F)

namespace Frame

/-- Whether a formula has to start here. -/
def isFresh (frame : Frame F) : Bool := frame.group.isNone && frame.comparison.isEmpty

/-- The formula that has just been read. -/
def operand? (frame : Frame F) : Option F :=
  match frame.group, frame.comparison with
  | some formula, [] => some formula
  | none, tokens => if frame.depth = 0 then dialect.comparison tokens.reverse else none
  | some _, _ :: _ => none

/-- A formula joined with what stands before it. -/
def joinAfter (junction : Junction) (before : Option F) (formula : F) : F :=
  match before with
  | some before => dialect.join junction before formula
  | none => formula

/-- All formulas since the last `OR`. -/
def conjunctionOf? (frame : Frame F) : Option F := do
  let formula ← frame.operand? dialect
  return joinAfter dialect .all frame.conjunction (Nat.repeat dialect.not frame.negations formula)

/-- All formulas. -/
def formula? (frame : Frame F) : Option F := do
  return joinAfter dialect .any frame.disjunction (← frame.conjunctionOf? dialect)

/-- The frame after `AND`. -/
def afterAnd? (frame : Frame F) : Option (Frame F) := do
  return { disjunction := frame.disjunction, conjunction := some (← frame.conjunctionOf? dialect) }

/-- The frame after `OR`. -/
def afterOr? (frame : Frame F) : Option (Frame F) := do
  return { disjunction := some (← frame.formula? dialect) }

/-- The frame with a further token of a comparison. -/
def push (frame : Frame F) (token : Token) : Frame F :=
  { frame with
    comparison := token :: frame.comparison
    depth := if token = .sign "(" then frame.depth + 1
      else if token = .sign ")" then frame.depth - 1 else frame.depth }

end Frame

/-- The innermost frame and those around it. -/
abbrev Frames (F : Type) : Type := Frame F × List (Frame F)

/-- The frames after a token; none if the token cannot stand here. -/
def step (frames : Frames F) (token : Token) : Option (Frames F) :=
  let (frame, outer) := frames
  if 0 < frame.depth then some (frame.push token, outer)
  else if token.isKeyword "AND" then
    if frame.inRange then some ({ frame.push token with inRange := false }, outer)
    else (frame.afterAnd? dialect).map fun frame => (frame, outer)
  else if token.isKeyword "OR" then (frame.afterOr? dialect).map fun frame => (frame, outer)
  else if frame.isFresh && token.isKeyword "NOT" then
    some ({ frame with negations := frame.negations + 1 }, outer)
  else if frame.isFresh && token = .sign "(" then some ({}, frame :: outer)
  else if token = .sign ")" then
    match outer with
    | parent :: outer =>
      (frame.formula? dialect).map fun formula => ({ parent with group := some formula }, outer)
    | [] => none
  else if frame.group.isSome then none
  else some ({ frame.push token with inRange := token.isKeyword "BETWEEN" || frame.inRange }, outer)

/-- The frames after some tokens; the first token that cannot stand in its place is a fault. -/
def run : List Token → Frames F → Except DatabaseFault (Frames F)
  | [], frames => .ok frames
  | token :: rest, frames =>
    match step dialect frames token with
    | some frames => run rest frames
    | none => .error (.unexpected token.text)

/-- The formula that tokens denote. -/
def formulaOf (tokens : List Token) : Except DatabaseFault F := do
  let (frame, outer) ← run dialect tokens ({}, [])
  match frame.formula? dialect, outer with
  | some formula, [] => .ok formula
  | _, _ => .error .incomplete

/-- The formula that a text denotes, with values for its placeholders. -/
def readFormula (text : String) (values : List Operand) : Except DatabaseFault F := do
  formulaOf dialect (bind (← tokens text.toList) values)

end Reading

end TableQuery.Sql
