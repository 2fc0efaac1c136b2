import TableQuery.Database.Table
import TableQuery.Sql.Reader

/-!
# Definitions of tables

A table is defined by its columns, each by a name and a text. The text is the declared type, after
which `GENERATED ALWAYS AS` with an expression in parentheses makes it a computed column. Outside of
parentheses a comma ends the definition, and the name of a further column follows it.

## Main definitions

* `definitionsOf`: the columns that a name and a text define, each with its own text.
* `Table.define?`: a table with a further column.
* `Table.ofDefinitions?`: the table of some columns.
-/

namespace TableQuery

/-! ## Texts of columns -/

/-- The parts of a text between commas outside of parentheses. -/
def splitDefinitions : Nat → List Char → List (List Char)
  | _, [] => [[]]
  | depth, c :: rest =>
    if c = ',' && depth = 0 then [] :: splitDefinitions depth rest
    else
      let depth := if c = '(' then depth + 1 else if c = ')' then depth - 1 else depth
      match splitDefinitions depth rest with
      | part :: parts => (c :: part) :: parts
      | [] => [[c]]

/-- A further definition as its name and its text, with a space between them. -/
def furtherDefinition (part : List Char) : String × String :=
  let part := part.dropWhile Cell.isSpace
  (String.ofList (part.takeWhile fun c => !Cell.isSpace c),
    String.ofList ((part.dropWhile fun c => !Cell.isSpace c).drop 1))

/-- The columns that a name and a text define, each with its own text. -/
def definitionsOf (name text : String) : List (String × String) :=
  match splitDefinitions 0 text.toList with
  | first :: rest => (name, String.ofList first) :: rest.map furtherDefinition
  | [] => []

/-! ## Computed columns -/

/-- What stands before and after the first place of some characters in others. -/
def splitAtFirst? (mark : List Char) : List Char → Option (List Char × List Char)
  | [] => none
  | c :: rest =>
    if mark.isPrefixOf (c :: rest) then some ([], (c :: rest).drop mark.length)
    else (splitAtFirst? mark rest).map fun (before, after) => (c :: before, after)

/-- What stands between the type of a computed column and its expression. -/
def computedMark : String := " GENERATED ALWAYS AS "

/-- Whether a token says when the values of a computed column are computed, which nothing shows. -/
def isStorage (token : Sql.Token) : Bool := token.isKeyword "VIRTUAL" || token.isKeyword "STORED"

/-- The expression that tokens hold in parentheses. -/
def expressionOf? (tokens : List Sql.Token) : Option Scalar :=
  match tokens.filter fun token => !isStorage token with
  | .sign "(" :: rest =>
    if rest.getLast? = some (.sign ")") then Sql.scalarOf? rest.dropLast else none
  | _ => none

/-! ## Tables -/

/-- The table with a further column, by its name and its text. -/
def Table.define? (table : Table) (name text : String) : Option Table :=
  match splitAtFirst? computedMark.toList text.toList with
  | none => some { table with columns := table.columns ++ [⟨name, text⟩] }
  | some (type, rest) =>
    match Sql.tokens rest with
    | .ok tokens => (expressionOf? tokens).map fun expression =>
      { table with
        computed := table.computed ++ [⟨⟨name, String.ofList type⟩, expression⟩] }
    | .error _ => none

/-- The table of some columns, by their names and texts. -/
def Table.ofDefinitions? (name : String) (columns : List (String × String)) : Option Table :=
  (columns.flatMap fun (column, text) => definitionsOf column text).foldlM
    (fun table (column, text) => table.define? column text) { name := name, columns := [] }

end TableQuery
