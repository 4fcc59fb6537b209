import PageScript.Command.Arguments
import PageScript.Command.Check
import PageScript.Log.Filter

/-!
# The program

One run of the program: understand the arguments, load the settings, execute the
command.  The run is a function of the arguments, the environment and the disk; its
result says what is printed, what is logged and how the run ends.
-/

namespace PageScript

/-- What a run of the program can see besides its arguments. -/
structure Environment where
  disk : Disk
  /-- The value of a variable. -/
  lookup : String → Option String
  /-- The directory of the user. -/
  home : Option String
  /-- The directory of the user's settings. -/
  configHome : Option String
  /-- Number of processors. -/
  processors : Nat := 1

/-- How a run of the program ends. -/
structure Result where
  exitCode : Nat
  output : String
  errors : String
  /-- The lines of the log, in order. -/
  log : List String := []
  deriving DecidableEq

namespace Settings

/-- The name of the file that holds settings. -/
def fileName : String :=
  "phoxt.toml"

/-- Where settings are looked for, in order. -/
def candidates (environment : Environment) : List String :=
  [fileName] ++
    (environment.home.map fun home => home ++ "/.config/phoxt/" ++ fileName).toList ++
    (environment.configHome.map fun home => home ++ "/phoxt/" ++ fileName).toList

/-- The settings in a file. -/
def readFile (disk : Disk) (path : String) : Except Failure Settings :=
  match disk path with
  | .missing => .error (.settingsMissing path)
  | .directory => .error .isDirectory
  | .unreadable reason => .error (.io reason)
  | .file content =>
      match Utf8.text? content with
      | none => .error .notText
      | some text =>
          match parse? text with
          | none => .error .settingsMalformed
          | some settings => .ok settings

/-- The settings of a run: those in the file that was asked for, or in the first file
that is found, or the defaults. -/
def load (environment : Environment) (path? : Option String) : Except Failure Settings :=
  match path? with
  | some path => readFile environment.disk path
  | none =>
      match (candidates environment).find? fun path => (environment.disk path).isPresent with
      | some path => readFile environment.disk path
      | none => .ok {}

end Settings

namespace Program

/-- The version of the program. -/
def version : String :=
  "0.0.3"

/-- How the program is used. -/
def usage : String :=
  "Usage: phoxt [OPTIONS] <COMMAND>\n\n" ++
    "Commands:\n" ++
    "  tokens   List every token of a file\n" ++
    "  strings  Compile every string literal of a file\n" ++
    "  check    Check files for literal errors\n" ++
    "  help     Print this message\n\n" ++
    "Options:\n" ++
    "  -v, --verbose\n" ++
    "  -c, --config <CONFIG>\n" ++
    "      --no-color\n" ++
    "      --channel-capacity <CHANNEL_CAPACITY>\n" ++
    "  -h, --help\n" ++
    "  -V, --version\n"

/-- List the tokens of a page. -/
def listTokens (disk : Disk) (settings : Settings) (input : String)
    (format : Listing.Format) : Logged Printed :=
  match loadPage disk input with
  | .error failure => { value := { output := "", failure := some failure } }
  | .ok page =>
      let read := page.tokens settings
      { value := { output := Listing.tokens format read.value }
        events := read.events ++ [.scannedTokens page.file.name read.value.length] }

/-- List the literals of a page. -/
def listLiterals (disk : Disk) (settings : Settings) (input : String) : Logged Printed :=
  match loadPage disk input with
  | .error failure => { value := { output := "", failure := some failure } }
  | .ok page =>
      let compiled := page.items settings
      { value := { output := Listing.literals page.map compiled.value }
        events :=
          compiled.events ++ [.compiledLiterals page.file.name compiled.value.length] }

/-- Execute a command. -/
def execute (environment : Environment) (settings : Settings) : Action → Logged Printed
  | .tokens input format =>
      listTokens environment.disk settings input (format.getD settings.format)
  | .strings input => listLiterals environment.disk settings input
  | .check inputs jobs =>
      checkPages environment.disk settings inputs
        ((jobs.or settings.jobs).getD environment.processors)

/-- Run the program on understood arguments. -/
def runInvocation (environment : Environment) (invocation : Invocation) : Result :=
  match Settings.load environment invocation.config with
  | .error failure =>
      { exitCode := 1
        output := ""
        errors := Failure.report ("could not load configuration" :: failure.chain) }
  | .ok settings =>
      let settings :=
        { settings with
          channelCapacity := invocation.channelCapacity.getD settings.channelCapacity }
      let executed := execute environment settings invocation.action
      let filter := Filter.choose invocation.verbose (environment.lookup "RUST_LOG")
      { exitCode := if executed.value.failure.isNone then 0 else 1
        output := executed.value.output
        errors :=
          match executed.value.failure with
          | none => ""
          | some failure => Failure.report failure.chain
        log := (executed.events.filter filter.allows).map Event.line }

/-- Run the program. -/
def run (environment : Environment) (arguments : List String) : Result :=
  match Invocation.read arguments environment.lookup with
  | .ok invocation => runInvocation environment invocation
  | .error .usage =>
      { exitCode := 2, output := "", errors := "error: invalid arguments\n\n" ++ usage }
  | .error .help => { exitCode := 0, output := usage, errors := "" }
  | .error (.version scope) =>
      { exitCode := 0, output := scope.title ++ " " ++ version ++ "\n", errors := "" }

end Program

end PageScript
