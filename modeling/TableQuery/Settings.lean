import TableQuery.Page

/-!
# Settings

The database, the limits and the default order, from named variables. A variable that is not set
leaves its setting as it is by default; one that is set has to be right, and the limits have to
leave room for a page.

## Main definitions

* `Settings`: the settings.
* `SettingsError`: why variables give none, with its wording and its causes.
* `Settings.ofLookup`: the settings that variables give.
-/

namespace TableQuery

/-- The settings of the program. -/
structure Settings where
  /-- Where the database is. -/
  databaseUrl : String := "sqlite://filterql.db"
  /-- The limits and the default order of pages. -/
  limits : PageLimits := {}
  deriving DecidableEq, Repr

/-- Why variables give no settings. -/
inductive SettingsError where
  /-- A limit is no integer. -/
  | invalidLimit (variableName : String) (fault : Numeral.IntegerFault)
  /-- The default limit leaves no room for a row. -/
  | notPositive
  /-- The default limit is greater than the greatest one. -/
  | exceedsMaximum (default maximum : Int64)
  /-- The default column is no identifier. -/
  | invalidColumn (error : QueryError)
  /-- The default direction is none. -/
  | invalidDirection (error : QueryError)
  deriving DecidableEq, Repr

namespace SettingsError

/-- The wording of an error. -/
def message : SettingsError → String
  | invalidLimit variableName _ => s!"Invalid {variableName}"
  | notPositive => "PAGE_DEFAULT_LIMIT must be positive"
  | exceedsMaximum default maximum =>
    s!"PAGE_DEFAULT_LIMIT ({default.toInt}) exceeds PAGE_MAX_LIMIT ({maximum.toInt})"
  | invalidColumn _ => "Invalid DEFAULT_SORT_COLUMN"
  | invalidDirection _ => "Invalid DEFAULT_SORT_DIRECTION"

/-- What lies behind an error. -/
def causes : SettingsError → List String
  | invalidLimit _ fault => [fault.message]
  | notPositive => []
  | exceedsMaximum _ _ => []
  | invalidColumn error => [error.message]
  | invalidDirection error => [error.message]

end SettingsError

namespace Settings

/-- The limit that a variable gives. -/
def limitOf (lookup : String → Option String) (variableName : String) (default : Int64) :
    Except SettingsError Int64 :=
  match lookup variableName with
  | none => .ok default
  | some value =>
    match Numeral.readInt64 value.toList with
    | .ok limit => .ok limit
    | .error fault => .error (.invalidLimit variableName fault)

/-- The default column that a variable gives. -/
def columnOf (lookup : String → Option String) : Except SettingsError String :=
  match lookup "DEFAULT_SORT_COLUMN" with
  | none => .ok SortKey.standard.column
  | some value =>
    match Identifier.check value with
    | .ok column => .ok column.name
    | .error error => .error (.invalidColumn error)

/-- The default direction that a variable gives, in ASCII letters of either case. -/
def directionOf (lookup : String → Option String) : Except SettingsError Direction :=
  match lookup "DEFAULT_SORT_DIRECTION" with
  | none => .ok SortKey.standard.direction
  | some value =>
    match Direction.ofText (String.ofList (value.toList.map Char.toUpper)) with
    | .ok direction => .ok direction
    | .error error => .error (.invalidDirection error)

/-- The settings that variables give. -/
def ofLookup (lookup : String → Option String) : Except SettingsError Settings := do
  let limits : PageLimits := {}
  let defaultLimit ← limitOf lookup "PAGE_DEFAULT_LIMIT" limits.defaultLimit
  let maxLimit ← limitOf lookup "PAGE_MAX_LIMIT" limits.maxLimit
  if defaultLimit ≤ 0 then throw .notPositive
  if maxLimit < defaultLimit then throw (.exceedsMaximum defaultLimit maxLimit)
  let column ← columnOf lookup
  let direction ← directionOf lookup
  return {
    databaseUrl := (lookup "DATABASE_URL").getD ({} : Settings).databaseUrl
    limits := { defaultLimit, maxLimit, defaultSort := ⟨column, direction⟩ } }

end Settings

end TableQuery
