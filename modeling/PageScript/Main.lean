import PageScript.Command.Program

/-!
# The command line

The outer layer of the program.  It looks at the few paths and variables that the
run can ask for, runs the program on what it found, prints the result and ends with
its exit code.  Nothing is decided here.
-/

namespace PageScript.CommandLine

/-- What stands at a path.  A directory is told from other failures by the number of
the refusal. -/
def look (path : String) : IO DiskEntry := do
  try
    let content ← IO.FS.readBinFile path
    return .file content.toList
  catch refusal =>
    match refusal with
    | .noFileOrDirectory _ _ _ => return .missing
    | .inappropriateType _ 21 _ => return .directory
    | .inappropriateType _ _ _ => return .missing
    | other => return .unreadable (toString other)

/-- The names of the variables that a run can ask for. -/
def variableNames : List String :=
  ["PHOXT_VERBOSE", "PHOXT_CONFIG", "PHOXT_NO_COLOR", "RUST_LOG"]

/-- The paths that a run can ask for. -/
def paths (environment : Environment) (invocation : Invocation) : List String :=
  let inputs :=
    match invocation.action with
    | .tokens input _ => [input]
    | .strings input => [input]
    | .check inputs _ => inputs
  Settings.candidates environment ++ invocation.config.toList ++ inputs

/-- A variable that is set and not empty. -/
def setVariable (name : String) : IO (Option String) := do
  return (← IO.getEnv name).filter (· != "")

/-- Run the program on the arguments of the process. -/
def run (arguments : List String) : IO UInt32 := do
  let values ← variableNames.mapM fun name => do return (name, ← IO.getEnv name)
  let home ← setVariable "HOME"
  let chosen := (← setVariable "XDG_CONFIG_HOME").filter (·.startsWith "/")
  let environment : Environment := {
    disk := fun _ => .missing
    lookup := fun name => (values.find? fun entry => entry.1 == name).bind (·.2)
    home
    configHome := chosen.or (home.map (· ++ "/.config")) }
  let asked :=
    match Invocation.read arguments environment.lookup with
    | .ok invocation => paths environment invocation
    | .error _ => []
  let found ← asked.mapM fun path => do return (path, ← look path)
  let disk : Disk := fun path =>
    match found.find? fun entry => entry.1 == path with
    | some (_, entry) => entry
    | none => .missing
  let result := Program.run { environment with disk } arguments
  for line in result.log do
    IO.eprintln line
  IO.print result.output
  IO.eprint result.errors
  return UInt32.ofNat result.exitCode

end PageScript.CommandLine

/-- The entry of the program. -/
def main (arguments : List String) : IO UInt32 :=
  PageScript.CommandLine.run arguments
