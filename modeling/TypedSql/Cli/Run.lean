import TypedSql.Cli.Help
import TypedSql.Dialect.MySql
import TypedSql.Json.Request
import TypedSql.Project
import TypedSql.Statement

/-!
# Running a command

From the arguments to the text on standard output. A command that builds a statement reads the project
file, looks up the table, reads the request and builds. The table and its mapping come from the project
file, whatever the request says about them.

The functions that read files and standard input are parameters, so the run can be looked at without a
world around it.
-/

namespace TypedSql.Cli

/-- Why a command fails. -/
inductive Failure where
  | arguments (error : ArgumentError)
  /-- The project file cannot be read, for the given reason. -/
  | configUnreadable (path reason : String)
  | configInvalid (path : String) (fault : Project.Fault)
  | tableUndefined (table path : String)
  | requestUnreadable (path reason : String)
  | inputUnreadable (reason : String)
  | requestMalformed (fault : Json.Fault)
  | notBuilt (operation : Operation) (error : BuildError)

/-- The text of a failure, with its cause behind a colon. -/
def Failure.message : Failure → String
  | .arguments error => error.message
  | .configUnreadable path reason => "failed to read config file " ++ path ++ ": " ++ reason
  | .configInvalid path fault => "invalid config file " ++ path ++ ": " ++ fault.message
  | .tableUndefined table path => "table " ++ table ++ " is not defined in " ++ path
  | .requestUnreadable path reason => "failed to read request file " ++ path ++ ": " ++ reason
  | .inputUnreadable reason => "failed to read request from stdin: " ++ reason
  | .requestMalformed fault =>
    match fault.message? with
    | some cause => "failed to parse request JSON: " ++ cause
    | none => "failed to parse request JSON"
  | .notBuilt operation error =>
    "failed to build " ++ operation.name ++ " statement: " ++ error.message

/-! ### Steps -/

/-- The project of a file with the given content. -/
def loadProject (path : String) (content : Except String String) : Logged Failure Project :=
  match content with
  | .error reason => Logged.fail (.configUnreadable path reason)
  | .ok text =>
    match Project.ofText text with
    | .error fault => Logged.fail (.configInvalid path fault)
    | .ok project => do
      Logged.emit (.loadedConfig path project.tables.length)
      return project

/-- The project of a file and the mapping of one of its tables. -/
def loadTable (path table : String) (content : Except String String) :
    Logged Failure (Project × Mapping) := do
  let project ← loadProject path content
  match project.mapping? table with
  | some mapping => return (project, mapping)
  | none => Logged.fail (.tableUndefined table path)

/-- The request of a text; a blank text is a request without parts. -/
def readRequest (operation : Operation) (text : String) : Except Json.Fault Request :=
  if Text.allBlank text then .ok .empty else Json.requestOfText operation text

/-- The statement of an operation for a table and its mapping and the text of a request. -/
def buildStatement (b : Builder) (operation : Operation) (text table : String) (mapping : Mapping) :
    Logged Failure String :=
  match readRequest operation text with
  | .error fault => Logged.fail (.requestMalformed fault)
  | .ok request =>
    (b.build operation (request.withTarget table mapping)).mapError (.notBuilt operation)

/-! ### Commands -/

/-- What a command reads from: files by their paths, and standard input. A failure gives its reason. -/
structure Sources (m : Type → Type) where
  file : String → m (Except String String)
  input : m (Except String String)

variable {m : Type → Type} [Monad m]

/-- The text of the request. -/
def requestText (sources : Sources m) (path : Option String) : m (Except Failure String) :=
  match path with
  | some path => do return (← sources.file path).mapError (.requestUnreadable path)
  | none => do return (← sources.input).mapError .inputUnreadable

/-- Runs a command; a text that is printed ends with a line end. -/
def runCommand (sources : Sources m) : Command → m (Logged Failure String)
  | .help topic => pure (pure (helpText topic ++ "\n"))
  | .build operation config table request => do
    let content ← sources.file config
    let loaded := loadTable config table content
    match loaded.result with
    | .error e => return ⟨loaded.events, .error e⟩
    | .ok _ =>
      let text ← requestText sources request
      return do
        let (project, mapping) ← loaded
        let text ← Logged.ofExcept text
        let sql ← buildStatement ⟨.mySql, project.settings⟩ operation text table mapping
        return sql ++ "\n"

/-- Runs the program with its arguments. -/
def run (sources : Sources m) (arguments : List String) : m (Logged Failure String) :=
  match Command.ofArguments arguments with
  | .error e => pure (Logged.fail (.arguments e))
  | .ok command => runCommand sources command

end TypedSql.Cli
