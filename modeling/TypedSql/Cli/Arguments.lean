import TypedSql.Operation

/-!
# Command line arguments

The first argument names an operation or asks for help. The others are options, each with a value that
stands in the next argument or behind an equals sign. Arguments are read from the left, and the first
that asks for help or cannot be read decides. Of a repeated option the last value counts.
-/

namespace TypedSql.Cli

/-- The options. -/
inductive OptionName where
  | config | table | request
deriving DecidableEq, Repr

namespace OptionName

/-- All options. -/
def all : List OptionName := [.config, .table, .request]

/-- How an option is written. -/
def flag : OptionName → String
  | .config => "--config"
  | .table => "--table"
  | .request => "--request"

end OptionName

/-- What is given by the options that were read. -/
structure Options where
  /-- The path of the project file. -/
  config : String
  /-- The table, once it is given. -/
  table : Option String
  /-- The path of the request; without one it is read from standard input. -/
  request : Option String
deriving DecidableEq, Repr

namespace Options

/-- What holds without options. -/
def default : Options := { config := "mapsql.toml", table := none, request := none }

/-- A request path; a dash means standard input. -/
def requestPath (value : String) : Option String :=
  if value = "-" then none else some value

/-- The options with one more value. -/
def set (o : Options) (name : OptionName) (value : String) : Options :=
  match name with
  | .config => { o with config := value }
  | .table => { o with table := some value }
  | .request => { o with request := requestPath value }

end Options

/-- What the program is asked to do. -/
inductive Command where
  /-- Show help on an operation, or on the program. -/
  | help (topic : Option Operation)
  /-- Build a statement. -/
  | build (operation : Operation) (config table : String) (request : Option String)
deriving DecidableEq, Repr

/-- Why arguments cannot be read. -/
inductive ArgumentError where
  | unknownCommand (name : String)
  | missingValue (name : OptionName)
  | unexpected (argument : String)
  | missingTable (operation : Operation)
deriving DecidableEq, Repr

/-- The text of an argument error. -/
def ArgumentError.message : ArgumentError → String
  | .unknownCommand name => "unknown command: " ++ name
  | .missingValue name => name.flag ++ " requires a value"
  | .unexpected argument => "unexpected argument: " ++ argument
  | .missingTable operation =>
    "--table is required (see \x60mapsql " ++ operation.name ++ " --help\x60)"

/-! ### Single arguments -/

/-- What an argument says by itself. -/
inductive Token where
  | help
  /-- An option whose value is the next argument. -/
  | option (name : OptionName)
  /-- An option with its value. -/
  | assigned (name : OptionName) (value : String)
  | other
deriving DecidableEq, Repr

/-- The argument asks for help. -/
def isHelp (argument : String) : Bool := argument == "-h" || argument == "--help"

/-- What is left of a text when a beginning is taken away as often as it stands there, at most `times`. -/
def stripAll (start : List Char) : Nat → List Char → List Char
  | 0, cs => cs
  | times + 1, cs =>
    match start.isPrefixOf? cs with
    | some rest => stripAll start times rest
    | none => cs

/-- The value that an argument assigns to an option. The name of the option with its equals sign may stand
there several times. -/
def assignedValue? (argument : String) (name : OptionName) : Option String :=
  let start := name.flag.toList ++ ['=']
  let cs := argument.toList
  if start.isPrefixOf cs then some (String.ofList (stripAll start cs.length cs)) else none

/-- Reads one argument. -/
def Token.ofArgument (argument : String) : Token :=
  if isHelp argument then .help
  else
    match OptionName.all.find? fun name => name.flag == argument with
    | some name => .option name
    | none =>
      match OptionName.all.findSome? fun name => (assignedValue? argument name).map (name, ·) with
      | some (name, value) => .assigned name value
      | none => .other

/-! ### All arguments -/

/-- The command that the options of an operation make. -/
def Options.command (o : Options) (operation : Operation) : Except ArgumentError Command :=
  match o.table with
  | some table => .ok (.build operation o.config table o.request)
  | none => .error (.missingTable operation)

/-- Reads the arguments behind the operation. -/
def readOptions (operation : Operation) (o : Options) : List String → Except ArgumentError Command
  | [] => o.command operation
  | argument :: rest =>
    match Token.ofArgument argument with
    | .help => .ok (.help (some operation))
    | .assigned name value => readOptions operation (o.set name value) rest
    | .option name =>
      match rest with
      | [] => .error (.missingValue name)
      | value :: rest' => readOptions operation (o.set name value) rest'
    | .other => .error (.unexpected argument)

/-- The command that the arguments make, the name of the program not among them. -/
def Command.ofArguments : List String → Except ArgumentError Command
  | [] => .ok (.help none)
  | first :: rest =>
    if isHelp first then .ok (.help none)
    else
      match Operation.ofName? first with
      | some operation => readOptions operation .default rest
      | none => .error (.unknownCommand first)

end TypedSql.Cli
