import ResourceQuery.Configuration.Basic
import ResourceQuery.Repository.Basic
import ResourceQuery.Request.Document
import ResourceQuery.Sql.Listing

/-!
# The command line

What the program does with its arguments, as a function from the texts of the files it reads to
what it prints.

## Main Definitions

- `Invocation`: what the program is asked to do.
- `Invocation.ofArguments?`: reading the arguments.
- `Invocation.run`: the outcome.

## Design Notes

Files, environment and database are parameters, so that running a command is a function.  The
files that a command reads are known from its arguments.
-/

namespace ResourceQuery

/-- The files that a command reads. -/
structure CommandFiles where
  /-- The directory of the configuration. -/
  configuration : String
  /-- The file of the request. -/
  request : String

/-- The path of the configuration file. -/
def CommandFiles.configurationPath (files : CommandFiles) : String :=
  files.configuration ++ "/" ++ Configuration.fileName

/-- What the program is asked to do. -/
inductive Invocation where
  /-- Show the statements for a request. -/
  | compile (files : CommandFiles)
  /-- Run a request and show the rows. -/
  | query (files : CommandFiles)
  /-- Show the version. -/
  | version
  /-- Show the commands. -/
  | help

/-- What a run of the program leaves behind. -/
structure Outcome where
  exitCode : UInt8
  stdout : String
  stderr : String

/-- Why a command fails. -/
inductive CommandError where
  | configuration (error : ConfigurationError)
  | missingVariable (error : MissingVariable)
  /-- The file of the request is missing, or is no request. -/
  | malformedRequest
  /-- The database of the configuration cannot be reached. -/
  | noConnection
  | repository (error : RepositoryError)

/-- The wording of an error. -/
def CommandError.message : CommandError → String
  | configuration error => error.message
  | missingVariable error => error.message
  | malformedRequest => "the request cannot be read"
  | noConnection => "unable to initialize connection pool"
  | repository error => error.message

namespace Invocation

/-! ### Arguments -/

/-- The options of a command that have been read. -/
structure Options where
  configuration? : Option String
  request? : Option String

/-- Is an argument a value, not the name of an option. -/
def isValue (argument : String) : Bool :=
  argument = "-" || !argument.startsWith "-"

/-- Read options with their values, none of them twice. -/
def readOptions? : Options → List String → Option Options
  | options, [] => some options
  | options, name :: value :: rest =>
    if !isValue value then none
    else if name = "--configuration" ∧ options.configuration?.isNone then
      readOptions? { options with configuration? := some value } rest
    else if name = "--request" ∧ options.request?.isNone then
      readOptions? { options with request? := some value } rest
    else none
  | _, [_] => none

/-- The files named by the options of a command. -/
def readFiles? (arguments : List String) : Option CommandFiles := do
  let options ← readOptions? ⟨none, none⟩ arguments
  return ⟨← options.configuration?, ← options.request?⟩

/-- What the arguments ask for. -/
def ofArguments? : List String → Option Invocation
  | "compile" :: arguments => compile <$> readFiles? arguments
  | "query" :: arguments => query <$> readFiles? arguments
  | "--version" :: _ => some version
  | "-V" :: _ => some version
  | "--help" :: _ => some help
  | "-h" :: _ => some help
  | _ => none

/-- The name of the program. -/
def programName : String := "resource-sql"

/-- The version of the program. -/
def versionText : String := programName ++ " 0.1.1\n"

/-- The commands of the program. -/
def helpText : String :=
  "Compile resource queries into PostgreSQL statements\n\nUsage: " ++ programName
    ++ " <COMMAND>\n\nCommands:\n"
    ++ "  compile       Print the statements a query request compiles to, "
    ++ "without connecting to a database\n"
    ++ "  query         Run a query request and print the rows it returns\n"
    ++ "  print-schema  Print the JSON schema of the configuration file\n"
    ++ "  help          Print this message or the help of the given subcommand(s)\n\n"
    ++ "Options:\n  -h, --help     Print help\n  -V, --version  Print version\n"

/-! ### Running -/

/-- The files that the program reads. -/
def paths : Invocation → List String
  | compile files => [files.configurationPath, files.request]
  | query files => [files.configurationPath, files.request]
  | version => []
  | help => []

/-- The configuration in a file. -/
def readConfiguration (file : String → Option String) (files : CommandFiles) :
    Except CommandError Configuration :=
  (Configuration.parse (file files.configurationPath)).mapError .configuration

/-- The request in a file. -/
def readRequest (file : String → Option String) (files : CommandFiles) :
    Except CommandError Request :=
  match (file files.request).bind fun text => (Json.read? text).bind Request.ofJson? with
  | some request => .ok request
  | none => .error .malformedRequest

/-- The text that shows the statements for a request. -/
def runCompile (file : String → Option String) (files : CommandFiles) :
    Except CommandError String := do
  let configuration ← readConfiguration file files
  let request ← readRequest file files
  let statements ← (Repository.statements configuration.schema configuration.querySettings
    request).mapError .repository
  return Sql.listing statements ++ "\n"

/-- A result as a document. -/
def resultToJson (result : QueryResult) : Json :=
  .object [("rows", Json.ofList (Json.ofList Json.sortMembers) result.rows),
    ("totalCount", Json.ofOption Json.ofUInt64 result.totalCount?)]

/-- The text that shows the rows for a request. -/
def runQuery {σ : Type} (file environment : String → Option String)
    (connect : RuntimeConfiguration → Option (Store σ × σ)) (files : CommandFiles) :
    Except CommandError String := do
  let configuration ← readConfiguration file files
  let runtime ← (configuration.resolve environment).mapError .missingVariable
  let request ← readRequest file files
  match connect runtime with
  | none => throw .noConnection
  | some (store, state) =>
    let repository : Repository σ := ⟨runtime.schema, runtime.querySettings, store⟩
    let (result, _) := (repository.query request).run (Session.start state)
    return (resultToJson (← result.mapError .repository)).pretty ++ "\n"

/-- What a command leaves behind: its text, or the wording of its failure. -/
def outcomeOf : Except CommandError String → Outcome
  | .ok text => ⟨0, text, ""⟩
  | .error error => ⟨1, "", error.message ++ "\n"⟩

/-- The outcome of an invocation. -/
def run {σ : Type} (file environment : String → Option String)
    (connect : RuntimeConfiguration → Option (Store σ × σ)) : Invocation → Outcome
  | compile files => outcomeOf (runCompile file files)
  | query files => outcomeOf (runQuery file environment connect files)
  | version => ⟨0, versionText, ""⟩
  | help => ⟨0, helpText, ""⟩

/-- The outcome of arguments that ask for nothing. -/
def usage : Outcome where
  exitCode := 2
  stdout := ""
  stderr := "error: unrecognized arguments\n\nUsage: " ++ programName ++ " <COMMAND>\n"

end Invocation

/-- The outcome of running the program with some arguments. -/
def runCommand {σ : Type} (file environment : String → Option String)
    (connect : RuntimeConfiguration → Option (Store σ × σ)) (arguments : List String) : Outcome :=
  match Invocation.ofArguments? arguments with
  | some invocation => invocation.run file environment connect
  | none => Invocation.usage

end ResourceQuery
