import TableQuery.Numeral.Integer

/-!
# Arguments

What a command line asks for. An option is written `--name value` or `--name=value`; options of
the program may stand before or after the name of its command, and everything that is left of a
value is checked when the next option starts, so the first fault from the left is reported. An
argument that is not known is a fault of its own, whatever waits for its value at that point.

## Main definitions

* `Arguments`, `Command`: what is asked for.
* `ArgumentFault`: why nothing is done, with its kind.
* `Arguments.ofList`: reading a command line.
-/

namespace TableQuery.CommandLine

/-! ## What is asked for -/

/-- The page that a query asks for. -/
structure QueryArguments where
  /-- The table. -/
  table : String
  /-- The filter, as it is written. -/
  filter : Option String := none
  /-- The sort, as it is written. -/
  sort : Option String := none
  /-- The columns to return; none means all. -/
  fields : List String := []
  /-- The number of rows to leave out first. -/
  skip : Int64 := 0
  /-- The greatest number of rows. -/
  limit : Int64 := 0
  /-- The cursor after which the page starts. -/
  after : Option String := none
  deriving DecidableEq, Repr

/-- What the program is to do. -/
inductive Command where
  /-- Fetch a page of rows. -/
  | query (arguments : QueryArguments)
  /-- List the fields of a table that filters and sorts may use. -/
  | fields (table : String)
  deriving DecidableEq, Repr

/-- A command line that has been read. -/
structure Arguments where
  /-- Where the database is, if that is said. -/
  databaseUrl : Option String
  /-- What to do. -/
  command : Command
  deriving DecidableEq, Repr

/-! ## Faults -/

/-- Why nothing is done. -/
inductive ArgumentFault where
  /-- An option that has to be given is not. -/
  | missingOption
  /-- There are no arguments at all. -/
  | nothingGiven
  /-- There is no command. -/
  | missingCommand
  /-- There is no such command. -/
  | unknownCommand
  /-- Options exclude each other, or one is given twice. -/
  | conflict
  /-- A value is no integer. -/
  | invalidNumber
  /-- There is no such argument. -/
  | unknownArgument
  /-- An option has no value. -/
  | missingValue
  /-- A flag has a value. -/
  | unexpectedValue
  /-- Help is asked for. -/
  | help
  /-- The version is asked for. -/
  | version
  deriving DecidableEq, Repr

/-- The kind of a fault. -/
def ArgumentFault.kind : ArgumentFault → String
  | missingOption => "MissingRequiredArgument"
  | nothingGiven => "DisplayHelpOnMissingArgumentOrSubcommand"
  | missingCommand => "MissingSubcommand"
  | unknownCommand => "InvalidSubcommand"
  | conflict => "ArgumentConflict"
  | invalidNumber => "ValueValidation"
  | unknownArgument => "UnknownArgument"
  | missingValue => "InvalidValue"
  | unexpectedValue => "TooManyValues"
  | help => "DisplayHelp"
  | version => "DisplayVersion"

/-! ## Options -/

/-- The options. -/
inductive OptionName where
  | databaseUrl | table | filter | sort | fields | skip | limit | after
  deriving DecidableEq, Repr

namespace OptionName

/-- How an option is written after its hyphens. -/
def text : OptionName → String
  | databaseUrl => "database-url"
  | table => "table"
  | filter => "filter"
  | sort => "sort"
  | fields => "fields"
  | skip => "skip"
  | limit => "limit"
  | after => "after"

/-- Whether the value of an option is an integer. -/
def isNumeric : OptionName → Bool
  | skip | limit => true
  | _ => false

/-- Whether an option may be given several times. -/
def isRepeatable : OptionName → Bool
  | fields => true
  | _ => false

end OptionName

/-- The places where options are read. -/
inductive Level where
  /-- Before a command. -/
  | program
  /-- After the command that fetches a page. -/
  | query
  /-- After the command that lists fields. -/
  | fields
  deriving DecidableEq, Repr

namespace Level

/-- The options that may be given at a place. -/
def options : Level → List OptionName
  | program => [.databaseUrl]
  | query => [.databaseUrl, .table, .filter, .sort, .fields, .skip, .limit, .after]
  | fields => [.databaseUrl, .table]

/-- The option of a name. -/
def option? (level : Level) (name : String) : Option OptionName :=
  level.options.find? fun option => option.text = name

/-- The place after the command of a name. -/
def ofCommand? (name : String) : Option Level :=
  if name = "query" then some query else if name = "fields" then some fields else none

/-- The command that shows help. -/
def helpCommand : String := "help"

end Level

/-! ## Tokens -/

/-- An argument by its form. -/
inductive Token where
  /-- The argument after which there are no options. -/
  | escape
  /-- An option, and the value that is attached to it. -/
  | long (name : String) (value : Option String)
  /-- Short flags, by the first of them. -/
  | short (flag : Char)
  /-- Anything else. -/
  | word (text : String)
  deriving DecidableEq, Repr

/-- An argument by its form. -/
def Token.ofText (text : String) : Token :=
  match text.toList with
  | ['-', '-'] => escape
  | '-' :: '-' :: chars =>
    let name := String.ofList (chars.takeWhile (· ≠ '='))
    match chars.dropWhile (· ≠ '=') with
    | [] => long name none
    | _ :: value => long name (some (String.ofList value))
  | '-' :: flag :: _ => short flag
  | _ => word text

/-! ## Reading options -/

/-- What has been read of the options at a place. -/
structure Reading where
  /-- The options with their values, in order. -/
  given : List (OptionName × String) := []
  /-- The last option, which is checked when the next one starts, and its value. -/
  pending : Option (OptionName × Option String) := none
  deriving DecidableEq, Repr

namespace Reading

/-- Takes an option with its value. -/
def accept (reading : Reading) (option : OptionName) (value : String) :
    Except ArgumentFault Reading :=
  if !option.isRepeatable && (reading.given.lookup option).isSome then .error .conflict
  else if option.isNumeric && (Numeral.readInt64 value.toList).toOption.isNone then
    .error .invalidNumber
  else .ok { reading with given := reading.given ++ [(option, value)] }

/-- Takes the last option. -/
def settle (reading : Reading) : Except ArgumentFault Reading :=
  match reading.pending with
  | none => .ok reading
  | some (_, none) => .error .missingValue
  | some (option, some value) => { reading with pending := none }.accept option value

/-- Whether the last option waits for its value. -/
def awaitsValue? (reading : Reading) : Option OptionName :=
  match reading.pending with
  | some (option, none) => some option
  | _ => none

/-- A flag that ends the reading, once everything before it has been taken. -/
def finish {α : Type} (reading : Reading) (fault : ArgumentFault) : Except ArgumentFault α := do
  let _ ← reading.settle
  .error fault

/-- Reads an option. -/
def readLong (reading : Reading) (level : Level) (name : String) (value : Option String) :
    Except ArgumentFault Reading :=
  match level.option? name with
  | some option => do
    let reading ← reading.settle
    match value with
    | some value => reading.accept option value
    | none => return { reading with pending := some (option, none) }
  | none =>
    let flag (fault : ArgumentFault) : Except ArgumentFault Reading :=
      if value.isSome then .error .unexpectedValue else reading.finish fault
    if name = "help" then flag .help
    else if name = "version" && level = .program then flag .version
    else .error .unknownArgument

/-- Reads short flags. -/
def readShort (reading : Reading) (level : Level) (flag : Char) : Except ArgumentFault Reading :=
  if flag = 'h' then reading.finish .help
  else if flag = 'V' && level = .program then reading.finish .version
  else .error .unknownArgument

end Reading

/-- The fault of the argument that shows help of commands. -/
def helpFault : List String → ArgumentFault
  | [] => .help
  | [name] => if (Level.ofCommand? name).isSome || name = Level.helpCommand then .help
    else .unknownCommand
  | _ => .unknownCommand

/-- The fault of an argument that is neither an option nor the name of a command; a command's name
is not expected after the end of options. -/
def wordFault (level : Level) (text : String) : ArgumentFault :=
  if level ≠ .program then .unknownArgument
  else if (Level.ofCommand? text).isSome || text = Level.helpCommand then .unknownArgument
  else .unknownCommand

/-- Reads what stands after the end of options, where no argument is expected. -/
def readEscaped (level : Level) (reading : Reading) : List String → Except ArgumentFault Reading
  | [] => .ok reading
  | text :: _ => .error (wordFault level text)

/-- The options at a place, and the command that ends them with the arguments after it. -/
def readOptions (level : Level) :
    List String → Reading → Except ArgumentFault (Reading × Option (Level × List String))
  | [], reading => .ok (reading, none)
  | text :: rest, reading =>
    match Token.ofText text with
    | .escape => do return (← readEscaped level reading rest, none)
    | .long name value => do readOptions level rest (← reading.readLong level name value)
    | .short flag => do readOptions level rest (← reading.readShort level flag)
    | .word text =>
      match reading.awaitsValue? with
      | some option => readOptions level rest { reading with pending := some (option, some text) }
      | none =>
        if level = .program then
          match Level.ofCommand? text with
          | some command => .ok (reading, some (command, rest))
          | none => .error (if text = Level.helpCommand then helpFault rest else .unknownCommand)
        else .error .unknownArgument

/-! ## Commands -/

/-- The value of an option. -/
def Reading.value? (reading : Reading) (option : OptionName) : Option String :=
  reading.given.lookup option

/-- The integer of an option, zero where it is not given. -/
def Reading.number (reading : Reading) (option : OptionName) : Int64 :=
  match (reading.value? option).map fun value => Numeral.readInt64 value.toList with
  | some (.ok value) => value
  | _ => 0

/-- The values of the option for columns, each of which is a list with commas. -/
def Reading.fieldNames (reading : Reading) : List String :=
  (reading.given.filter fun entry => entry.1 = .fields).flatMap fun entry =>
    (entry.2.toList.splitOn ',').map String.ofList

/-- The command that options give. -/
def Command.ofReading (level : Level) (reading : Reading) : Except ArgumentFault Command := do
  let given (option : OptionName) : Bool := (reading.value? option).isSome
  if given .skip && given .after then throw .conflict
  match reading.value? .table with
  | none => .error .missingOption
  | some table =>
    if level = .fields then return .fields table
    else return .query {
      table
      filter := reading.value? .filter
      sort := reading.value? .sort
      fields := reading.fieldNames
      skip := reading.number .skip
      limit := reading.number .limit
      after := reading.value? .after }

/-- What a command line asks for. -/
def Arguments.ofList (arguments : List String) : Except ArgumentFault Arguments := do
  let (outer, command?) ← readOptions .program arguments {}
  match command? with
  | none =>
    let outer ← outer.settle
    .error (if outer.given.isEmpty then .nothingGiven else .missingCommand)
  | some (level, rest) =>
    let (inner, _) ← readOptions level rest {}
    let inner ← inner.settle
    let command ← Command.ofReading level inner
    let outer ← outer.settle
    return {
      databaseUrl := (inner.value? .databaseUrl).orElse fun _ => outer.value? .databaseUrl
      command }

end TableQuery.CommandLine
