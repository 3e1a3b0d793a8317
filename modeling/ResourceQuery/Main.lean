import ResourceQuery.CommandLine

/-!
# The program

Reads the files that the arguments name, and prints the outcome.
-/

namespace ResourceQuery

/-- The text of a file, if it can be read. -/
def readFileText? (path : String) : IO (Option String) := do
  try
    return some (← IO.FS.readFile path)
  catch _ =>
    return none

/-- The names and values of the variables in a configuration file. -/
def readVariables (text? : Option String) : IO (List (String × Option String)) :=
  match Configuration.parse text? with
  | .ok configuration =>
    match configuration.connectionUri with
    | .inEnvironment name => return [(name, ← IO.getEnv name)]
    | .plain _ => return []
  | .error _ => return []

end ResourceQuery

open ResourceQuery in
/-- Run the program.  No database can be reached from here. -/
def main (arguments : List String) : IO UInt32 := do
  let paths := (Invocation.ofArguments? arguments).elim [] Invocation.paths
  let texts ← paths.mapM fun path => return (path, ← readFileText? path)
  let environment ← readVariables ((texts.head?.map Prod.snd).join)
  let outcome := runCommand (fun path => (texts.lookup path).join)
    (fun name => (environment.lookup name).join)
    (fun _ => (none : Option (Store Unit × Unit))) arguments
  IO.print outcome.stdout
  IO.eprint outcome.stderr
  return outcome.exitCode.toUInt32
