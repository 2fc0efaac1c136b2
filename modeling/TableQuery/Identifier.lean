import TableQuery.QueryError

/-!
# Identifiers

The names of tables and columns are written into the text of a query, so only names that cannot be
anything else there are let through: a word, or two words with a point between them, where a word
is an ASCII letter or underscore followed by letters, underscores and digits.

## Main definitions

* `isIdentifier`: whether characters form such a name.
* `Identifier`: a name that does.
* `Identifier.check`: a name as an identifier, or the error that names it.
-/

namespace TableQuery

/-- Whether a character may start a word. -/
def isWordStart (c : Char) : Bool := c.isAlpha || c = '_'

/-- Whether a character may continue a word. -/
def isWordRest (c : Char) : Bool := c.isAlphanum || c = '_'

/-- Whether characters form a word. -/
def isWord : List Char → Bool
  | [] => false
  | c :: rest => isWordStart c && rest.all isWordRest

/-- Whether characters form a word, or two words with a point between them. -/
def isIdentifier (chars : List Char) : Bool :=
  match chars.splitOn '.' with
  | [name] => isWord name
  | [qualifier, name] => isWord qualifier && isWord name
  | _ => false

/-- A name that may stand in the text of a query. -/
structure Identifier where
  /-- The name. -/
  name : String
  /-- It is a word, or two words with a point between them. -/
  valid : isIdentifier name.toList = true
  deriving DecidableEq, Repr

/-- A name as an identifier, or the error that names it. -/
def Identifier.check (name : String) : Except QueryError Identifier :=
  if valid : isIdentifier name.toList = true then .ok ⟨name, valid⟩
  else .error (.invalidIdentifier name)

theorem Identifier.check_of_valid {name : String} (valid : isIdentifier name.toList = true) :
    Identifier.check name = .ok ⟨name, valid⟩ := by
  simp [check, valid]

/-- A name is refused exactly when it is no identifier, and the error names it. -/
theorem Identifier.check_eq_error_iff {name : String} {error : QueryError} :
    Identifier.check name = .error error ↔
      isIdentifier name.toList = false ∧ error = .invalidIdentifier name := by
  unfold check
  split
  · next h => simp [h]
  · next h =>
    simp only [Except.error.injEq, Bool.not_eq_true] at *
    simp [h, eq_comm]

/-- What is checked keeps its name. -/
theorem Identifier.name_of_check {name : String} {identifier : Identifier}
    (h : Identifier.check name = .ok identifier) : identifier.name = name := by
  unfold check at h
  split at h
  · simp only [Except.ok.injEq] at h
    rw [← h]
  · simp at h

end TableQuery
