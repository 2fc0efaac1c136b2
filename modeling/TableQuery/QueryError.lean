import TableQuery.Text.Quoted

/-!
# Errors

Why a request is refused. Most causes lie in what a client sent, and their message may be shown to
the client. The others mean that trusted code or the database failed; the client only learns
that something did.

## Main definitions

* `DatabaseFault`: why the database refuses a query.
* `QueryError`: every cause, with its wording `QueryError.message`.
* `QueryError.isInternal`, `publicMessage`, `code`: what a client gets to see.
-/

namespace TableQuery

open Text (quoted)

/-- Why the database refuses a query. -/
inductive DatabaseFault where
  /-- There is no such table. -/
  | noSuchTable (name : String)
  /-- There is no such column. -/
  | noSuchColumn (name : String)
  /-- The text of the query breaks off its grammar at a token. -/
  | unexpected (token : String)
  /-- The text of the query ends too early. -/
  | incomplete
  /-- A piece of the text of the query is no token. -/
  | unrecognized (piece : String)
  deriving DecidableEq, Repr

/-- The database's wording of a fault. -/
def DatabaseFault.message : DatabaseFault → String
  | noSuchTable name => s!"no such table: {name}"
  | noSuchColumn name => s!"no such column: {name}"
  | unexpected token => s!"near \"{token}\": syntax error"
  | incomplete => "incomplete input"
  | unrecognized piece => s!"unrecognized token: \"{piece}\""

/-- Why a request is refused. -/
inductive QueryError where
  /-- A filter is not an object. -/
  | filterNotObject
  /-- A sort is neither an object nor a list of objects. -/
  | sortNotObject
  /-- A field of a filter holds no operator set. -/
  | unsupportedField (field reason : String)
  /-- A pattern operator has an operand that is no text. -/
  | notAString (operator : String)
  /-- A date operator has a text that denotes no instant. -/
  | invalidDate (operator value : String)
  /-- An element of a sort list names several fields. -/
  | multipleSortFields
  /-- A cursor denotes no row. -/
  | invalidCursor (cursor : String)
  /-- A name may not stand in a query. -/
  | invalidIdentifier (name : String)
  /-- A table has no columns to introspect. -/
  | unknownTable (name : String)
  /-- A date operator has an operand of a kind that denotes no instant. -/
  | unsupportedDateValue (operator kind : String)
  /-- A text names no sort direction. -/
  | invalidSortDirection (direction : String)
  /-- The database refused a query. -/
  | database (fault : DatabaseFault)
  /-- A composition hook failed. -/
  | compose (cause : String)
  deriving DecidableEq, Repr

namespace QueryError

/-- The wording of an error. -/
def message : QueryError → String
  | filterNotObject => "filter must be an object"
  | sortNotObject => "sort must be an object"
  | unsupportedField field reason => s!"field {field} must be an operator set: {reason}"
  | notAString operator => s!"{operator} value must be a string"
  | invalidDate operator value => s!"{operator} value {quoted value} is not a valid RFC3339 date"
  | multipleSortFields => "sort list element must not have multiple fields"
  | invalidCursor cursor => s!"invalid cursor {quoted cursor}"
  | invalidIdentifier name => s!"invalid identifier {quoted name}"
  | unknownTable name => s!"unknown table {quoted name}"
  | unsupportedDateValue operator kind => s!"{operator}: date filter value not supported ({kind})"
  | invalidSortDirection direction => s!"invalid sort direction {quoted direction}"
  | database fault => s!"error returned from database: (code: 1) {fault.message}"
  | compose cause => cause

/-- Whether the cause lies in trusted code or the database, not in what a client sent. -/
def isInternal : QueryError → Bool
  | unsupportedDateValue .. => true
  | invalidSortDirection _ => true
  | database _ => true
  | compose _ => true
  | _ => false

/-- What a client may read of an error. -/
def publicMessage (error : QueryError) : String :=
  if error.isInternal then "internal error" else error.message

/-- The class of an error, for clients that tell errors apart. -/
def code (error : QueryError) : String :=
  if error.isInternal then "INTERNAL" else "BAD_USER_INPUT"

theorem publicMessage_of_isInternal {error : QueryError} (h : error.isInternal = true) :
    error.publicMessage = "internal error" := by
  simp [publicMessage, h]

theorem publicMessage_of_not_isInternal {error : QueryError} (h : error.isInternal = false) :
    error.publicMessage = error.message := by
  simp [publicMessage, h]

end QueryError

end TableQuery
