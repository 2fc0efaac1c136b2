import TableQuery.Database.Cell
import TableQuery.Identifier
import TableQuery.QueryError

/-!
# Tokens of conditions

The pieces that the text of a condition is made of: words, numbers, quoted texts, placeholders and
signs, with spaces between them where they need some.

## Main definitions

* `Sql.Token`: a piece.
* `Sql.tokens`: the pieces of a text.
* `Sql.bind`: values put in the place of placeholders.
-/

namespace TableQuery.Sql

/-- A piece of the text of a condition. -/
inductive Token where
  /-- A name or a keyword. -/
  | word (text : String)
  /-- A name in quotes. -/
  | name (text : String)
  /-- A number or a quoted text, or a value in the place of a placeholder. -/
  | value (cell : Cell)
  /-- A placeholder. -/
  | placeholder
  /-- A sign. -/
  | sign (text : String)
  deriving DecidableEq, Repr

/-- How a token is written, for messages. -/
def Token.text : Token → String
  | word text => text
  | name text => "\"" ++ text ++ "\""
  | value (.text text) => "'" ++ text ++ "'"
  | value cell => cell.text?.getD "NULL"
  | placeholder => "?"
  | sign text => text

/-- A word in upper case, as keywords are compared. -/
def Token.keyword? : Token → Option String
  | word text => some (String.ofList (text.toList.map Char.toUpper))
  | _ => none

/-- Whether a token is a keyword, in letters of either case. -/
def Token.isKeyword (keyword : String) (token : Token) : Bool := token.keyword? = some keyword

/-! ## Pieces of a text -/

/-- How many digits stand at the start of a text. -/
def digitCount (chars : List Char) : Nat := (chars.takeWhile Char.isDigit).length

/-- How long the exponent at the start of a text is: a letter, an optional sign and digits. -/
def exponentLength : List Char → Nat
  | [] => 0
  | c :: rest =>
    let signed := if rest.head? = some '+' || rest.head? = some '-' then 1 else 0
    let digits := digitCount (rest.drop signed)
    if (c = 'e' || c = 'E') && 0 < digits then 1 + signed + digits else 0

/-- How long the number at the start of a text is: digits around a point, and an exponent. -/
def numberLength (chars : List Char) : Nat :=
  let whole := digitCount chars
  let length :=
    if (chars.drop whole).head? = some '.' then whole + 1 + digitCount (chars.drop (whole + 1))
    else whole
  length + exponentLength (chars.drop length)

/-- Whether a number starts a text: a digit does, or a point before one. -/
def startsNumber : List Char → Bool
  | '.' :: c :: _ => c.isDigit
  | c :: _ => c.isDigit
  | [] => false

/-- The quote of texts. -/
def apostrophe : Char := '\x27'

/-- Reads a quoted text after its opening quote; a quote inside is written twice. -/
def takeQuoted (quote : Char) : List Char → Option (List Char × List Char)
  | [] => none
  | c :: rest =>
    if c = quote then
      match rest with
      | d :: rest =>
        if d = quote then (takeQuoted quote rest).map fun (text, rest) => (quote :: text, rest)
        else some ([], d :: rest)
      | [] => some ([], [])
    else (takeQuoted quote rest).map fun (text, rest) => (c :: text, rest)

/-- What may be left of a text after a quoted one is shorter. -/
theorem length_takeQuoted_lt {quote : Char} {chars text rest : List Char}
    (h : takeQuoted quote chars = some (text, rest)) : rest.length < chars.length := by
  fun_induction takeQuoted quote chars generalizing text rest with
  | case1 => simp at h
  | case2 tail ih =>
    obtain ⟨⟨inner, after⟩, hInner, hEq⟩ := Option.map_eq_some_iff.1 h
    simp only [Prod.mk.injEq] at hEq
    have := ih hInner
    simp only [List.length_cons, ← hEq.2]
    omega
  | case3 =>
    simp only [Option.some.injEq, Prod.mk.injEq] at h
    simp [← h.2]
  | case4 =>
    simp only [Option.some.injEq, Prod.mk.injEq] at h
    simp [← h.2]
  | case5 c tail _ ih =>
    obtain ⟨⟨inner, after⟩, hInner, hEq⟩ := Option.map_eq_some_iff.1 h
    simp only [Prod.mk.injEq] at hEq
    have := ih hInner
    simp only [List.length_cons, ← hEq.2]
    omega

/-- The sign that a text starts with, of which the longer one counts. -/
def signAt : List Char → Option (String × Nat)
  | '<' :: '=' :: _ => some ("<=", 2)
  | '<' :: '>' :: _ => some ("<>", 2)
  | '>' :: '=' :: _ => some (">=", 2)
  | '!' :: '=' :: _ => some ("<>", 2)
  | '=' :: '=' :: _ => some ("=", 2)
  | '=' :: _ => some ("=", 1)
  | '<' :: _ => some ("<", 1)
  | '>' :: _ => some (">", 1)
  | '(' :: _ => some ("(", 1)
  | ')' :: _ => some (")", 1)
  | ',' :: _ => some (",", 1)
  | '.' :: _ => some (".", 1)
  | '-' :: _ => some ("-", 1)
  | '+' :: _ => some ("+", 1)
  | _ => none

/-- The pieces of a text. -/
def tokens (chars : List Char) : Except DatabaseFault (List Token) :=
  match chars with
  | [] => .ok []
  | c :: rest =>
    if Cell.isSpace c then tokens rest
    else if isWordStart c then
      have : (rest.dropWhile isWordRest).length ≤ rest.length :=
        (List.dropWhile_sublist _).length_le
      (tokens (rest.dropWhile isWordRest)).map
        (.word (String.ofList (c :: rest.takeWhile isWordRest)) :: ·)
    else if startsNumber (c :: rest) then
      let length := numberLength (c :: rest)
      let after := rest.drop (length - 1)
      match Cell.numberOfChars? ((c :: rest).take length), after.takeWhile isWordRest with
      | some cell, [] => (tokens after).map (.value cell :: ·)
      | _, more => .error (.unrecognized (String.ofList ((c :: rest).take length ++ more)))
    else if c = '?' then (tokens rest).map (.placeholder :: ·)
    else if c = apostrophe || c = '"' then
      match h : takeQuoted c rest with
      | some (text, after) =>
        have := length_takeQuoted_lt h
        let token : Token :=
          if c = '"' then .name (String.ofList text) else .value (.text (String.ofList text))
        (tokens after).map (token :: ·)
      | none => .error (.unrecognized (String.ofList (c :: rest)))
    else
      match signAt (c :: rest) with
      | some (text, length) => (tokens (rest.drop (length - 1))).map (.sign text :: ·)
      | none => .error (.unrecognized (String.ofList [c]))
termination_by chars.length
decreasing_by all_goals simp only [List.length_cons, List.length_drop]; omega

/-! ## Values -/

/-- The values in the place of the placeholders, from left to right; there is null for every
placeholder without a value. -/
def bind : List Token → List Operand → List Token
  | [], _ => []
  | .placeholder :: rest, [] => .value .null :: bind rest []
  | .placeholder :: rest, value :: values => .value (.ofOperand value) :: bind rest values
  | token :: rest, values => token :: bind rest values

end TableQuery.Sql
