import TableQuery.CommandLine.Arguments
import TableQuery.Database.Execution
import TableQuery.Page.Json
import TableQuery.Settings

/-!
# Commands

What the commands answer. A query may be filtered and sorted by every column of its table, by JSON
that is given on the command line. Its faults are reported in this order: the table, the filter, the
sort, the cursor, and then those of the query itself.

## Main definitions

* `CommandFault`: why a command fails.
* `runQuery`, `Command.run`: the answers.
-/

namespace TableQuery.CommandLine

/-- Why a command fails. -/
inductive CommandFault where
  /-- The value of an option is no JSON. -/
  | invalidJson (option : OptionName)
  /-- The request is refused. -/
  | refused (error : QueryError)
  deriving DecidableEq, Repr

/-- The wording of a fault. -/
def CommandFault.message : CommandFault → String
  | invalidJson option => s!"Invalid --{option.text} JSON"
  | refused error => error.message

/-- An answer or a refusal. -/
def refusing {α : Type} : Except QueryError α → Except CommandFault α
  | .ok value => .ok value
  | .error error => .error (.refused error)

/-- The value of an option that holds JSON, null where it is not given. -/
def readOption (option : OptionName) : Option String → Except CommandFault Json
  | none => .ok .null
  | some source =>
    match Json.read? Json.maxDepth source with
    | some value => .ok value
    | none => .error (.invalidJson option)

/-- The window that a query asks for. -/
def QueryArguments.window (arguments : QueryArguments) : Except QueryError PageWindow :=
  match arguments.after with
  | some cursor => PageWindow.after cursor arguments.limit
  | none => .ok { skip := arguments.skip, limit := arguments.limit }

/-- The page that a query asks for. -/
def runQuery (database : Database) (settings : Settings) (arguments : QueryArguments) :
    Except CommandFault (Page Record) := do
  let columns ← refusing (database.columns arguments.table)
  let registry ← refusing (Registry.ofColumns columns)
  let filter ← refusing (registry.parseFilter (← readOption .filter arguments.filter))
  let sort ← refusing (registry.parseSort (← readOption .sort arguments.sort))
  let projection := (Projection.ofTable columns).markRequested (.ofPaths arguments.fields)
  let window ← refusing arguments.window
  let request : Request := { table := arguments.table, limits := settings.limits }
  let request := ((request.page window).filter (.ok filter)).sort sort
  let plan ← refusing (request.projection projection).build
  refusing (plan.fetch database)

/-- A returned row as JSON. -/
def recordJson (record : Record) : Json :=
  Json.ofFields (record.map fun (name, cell) => (name, cell.toJson))

/-- The names that a registry knows, as JSON. -/
def registryJson (registry : Registry) : Json :=
  Json.ofFields [
    ("filter", .ofTexts registry.filterNames),
    ("sort", .ofTexts registry.sortNames)]

/-- The answer of a command. -/
def Command.run (database : Database) (settings : Settings) : Command → Except CommandFault Json
  | query arguments => do return (← runQuery database settings arguments).toJson recordJson
  | fields table => do
    let columns ← refusing (database.columns table)
    return registryJson (← refusing (Registry.ofColumns columns))

end TableQuery.CommandLine
