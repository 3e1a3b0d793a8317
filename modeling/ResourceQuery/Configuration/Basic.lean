import ResourceQuery.Configuration.Settings
import ResourceQuery.Json.Printer
import ResourceQuery.Json.Reader
import ResourceQuery.Schema.Document

/-!
# Configurations

The file that describes a database: how to connect to it, how to serve requests, and its schema.

## Main Definitions

- `Configuration`: what the file says.
- `Configuration.parse`, `Configuration.write`: the text of the file.
- `RuntimeConfiguration`: the same with all secrets resolved.
- `Configuration.resolve`: reading the secrets from an environment.
-/

namespace ResourceQuery

open Json (Reading)

/-- A text that is given, or read from the environment. -/
inductive Secret where
  | plain (text : String)
  | inEnvironment (name : String)
deriving DecidableEq, Inhabited

namespace Secret

/-- A secret as a document. -/
def toJson : Secret → Json
  | plain text => .string text
  | inEnvironment name => .object [("variable", .string name)]

/-- The secret of a document. -/
def ofJson? : Json → Option Secret
  | .string text => some (plain text)
  | .object members => do return inEnvironment (← Json.required? members "variable" Json.string?)
  | _ => none

end Secret

/-- What a configuration file says. -/
structure Configuration where
  version : UInt32
  connectionUri : Secret
  poolSettings : PoolSettings
  querySettings : QuerySettings
  schema : Schema
deriving DecidableEq

/-- Why a configuration file cannot be used. -/
inductive ConfigurationError where
  /-- There is no file. -/
  | unreadable
  /-- The file is no document of the expected shape. -/
  | malformed
  | unsupportedVersion (version : UInt32)
deriving DecidableEq

namespace Configuration

/-- The name of the file. -/
def fileName : String := "configuration.json"

/-- The version of the format described here. -/
def currentVersion : UInt32 := 1

/-- A configuration as a document.  Settings that have their defaults are left out. -/
def toJson (c : Configuration) : Json :=
  .object ([("version", Json.ofUInt32 c.version), ("connectionUri", c.connectionUri.toJson)]
    ++ (if c.poolSettings = .standard then [] else [("poolSettings", c.poolSettings.toJson)])
    ++ (if c.querySettings = .standard then [] else [("querySettings", c.querySettings.toJson)])
    ++ [("metadata", c.schema.toJson)])

/-- The configuration of a document. -/
def ofReading? (r : Reading) : Option Configuration := do
  let members ← r.members?
  let version ← Reading.required? members "version" Json.uint32?
  let connectionUri ← Reading.required? members "connectionUri" Secret.ofJson?
  let poolSettings ←
    Reading.defaultedPart? members "poolSettings" .standard PoolSettings.ofReading?
  let querySettings ←
    Reading.defaultedPart? members "querySettings" .standard QuerySettings.ofReading?
  let schema ← Reading.defaultedPart? members "metadata" .empty Schema.ofReading?
  return { version, connectionUri, poolSettings, querySettings, schema }

/-- The configuration in the text of a file.  The version is looked at last. -/
def parse (text? : Option String) : Except ConfigurationError Configuration :=
  match text? with
  | none => .error .unreadable
  | some text =>
    match (Reading.ofText? text).bind ofReading? with
    | none => .error .malformed
    | some c =>
      if c.version = currentVersion then .ok c else .error (.unsupportedVersion c.version)

/-- The text of the file that describes a configuration. -/
def write (c : Configuration) : String :=
  c.toJson.pretty ++ "\n"

end Configuration

namespace ConfigurationError

/-- The wording of an error, where it has one of its own. -/
def message : ConfigurationError → String
  | unreadable => "I/O error: " ++ Configuration.fileName
  | malformed => "parse error on " ++ Configuration.fileName
  | unsupportedVersion version =>
    "unsupported configuration version " ++ natText version.toNat

end ConfigurationError

/-- A configuration with all secrets resolved. -/
structure RuntimeConfiguration where
  connectionUri : String
  poolSettings : PoolSettings
  querySettings : QuerySettings
  schema : Schema

/-- A variable that the configuration asks for and the environment lacks. -/
structure MissingVariable where
  name : String
deriving DecidableEq

/-- The wording for a missing variable. -/
def MissingVariable.message (m : MissingVariable) : String :=
  "missing environment variable when processing " ++ Configuration.fileName ++ ": the variable "
    ++ m.name ++ " is not set"

/-- Read the secrets of a configuration from an environment. -/
def Configuration.resolve (c : Configuration) (environment : String → Option String) :
    Except MissingVariable RuntimeConfiguration := do
  let connectionUri ← match c.connectionUri with
    | .plain text => pure text
    | .inEnvironment name =>
      match environment name with
      | some text => pure text
      | none => throw ⟨name⟩
  return { connectionUri, poolSettings := c.poolSettings, querySettings := c.querySettings,
           schema := c.schema }

end ResourceQuery
