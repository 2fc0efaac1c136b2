import TableQuery.CommandLine.Run
import TableQuery.Database.Json

/-!
# The program

Reads the arguments, the settings from the environment and the document of the databases from
standard input, runs the command and prints its answer as one line of JSON. A database that is named
by an argument goes before the one of the settings. The exit code tells wrong arguments from other
failures.
-/

namespace TableQuery

/-- The names of the variables that hold settings. -/
def settingNames : List String :=
  ["DATABASE_URL", "PAGE_DEFAULT_LIMIT", "PAGE_MAX_LIMIT", "DEFAULT_SORT_COLUMN",
    "DEFAULT_SORT_DIRECTION"]

/-- The answer to a command, or the wording of what is wrong. -/
def answerTo (arguments : CommandLine.Arguments) (lookup : String → Option String)
    (document : String) : Except String Json := do
  let settings ← (Settings.ofLookup lookup).mapError SettingsError.message
  let name := arguments.databaseUrl.getD settings.databaseUrl
  let some database := Database.ofDocument? name document | throw s!"No database {name}"
  (arguments.command.run database settings).mapError CommandLine.CommandFault.message

/-- What is left of a stream, after what has been read of it. -/
partial def readRest (input : IO.FS.Stream) (before : String) : IO String := do
  let line ← input.getLine
  if line.isEmpty then return before else readRest input (before ++ line)

end TableQuery

open TableQuery in
/-- Runs the program on its arguments. -/
def main (arguments : List String) : IO UInt32 := do
  match CommandLine.Arguments.ofList arguments with
  | .error fault =>
    IO.eprintln s!"error: {fault.kind}"
    return 2
  | .ok arguments =>
    let entries ← settingNames.filterMapM fun name => do
      return (← IO.getEnv name).map fun value => (name, value)
    let document ← readRest (← IO.getStdin) ""
    match answerTo arguments (fun name => entries.lookup name) document with
    | .ok answer =>
      IO.println answer.compact
      return 0
    | .error message =>
      IO.eprintln s!"error: {message}"
      return 1
