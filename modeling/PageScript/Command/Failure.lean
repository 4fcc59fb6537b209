import PageScript.Source.Map

/-!
# Failures

Why a command of the program fails, and how a failure is printed.  A failure of the
operating system is its own cause; printed below another message, causes are
indented, and numbered if there are several.
-/

namespace PageScript

/-- Why a command fails. -/
inductive Failure where
  /-- Settings are missing or malformed. -/
  | configuration (text : String)
  /-- The input is not what the command needs. -/
  | validation (text : String)
  /-- The command ran, and its result is a failure. -/
  | commandExecution (text : String)
  /-- A page is unknown. -/
  | sourceMap (error : SourceMapError)
  /-- The operating system refused something. -/
  | io (reason : String)
  deriving DecidableEq

namespace Failure

/-- A check without input files. -/
def noInputs : Failure :=
  .validation "No input files specified"

/-- An input path that leads nowhere. -/
def inputMissing (path : String) : Failure :=
  .validation ("Input path does not exist: " ++ path)

/-- An input path that leads to something other than a file. -/
def inputNotFile (path : String) : Failure :=
  .validation ("Input path is not a file: " ++ path)

/-- A check that found problems in some of its inputs. -/
def filesFailed (count : Nat) : Failure :=
  .commandExecution (toString count ++ " file(s) have problems")

/-- Settings that were asked for and are not there. -/
def settingsMissing (path : String) : Failure :=
  .configuration ("Configuration file not found: " ++ path)

/-- Settings that cannot be understood. -/
def settingsMalformed : Failure :=
  .configuration "Failed to parse configuration: malformed settings"

/-- A directory where a file was to be read. -/
def isDirectory : Failure :=
  .io "Is a directory (os error 21)"

/-- A file of text that is not well-formed UTF-8. -/
def notText : Failure :=
  .io "stream did not contain valid UTF-8"

/-- What is said about the failure. -/
def message : Failure → String
  | .configuration text => "Configuration error: " ++ text
  | .validation text => "Validation error: " ++ text
  | .commandExecution text => "Command execution failed: " ++ text
  | .sourceMap error => error.message
  | .io reason => "IO error: " ++ reason

/-- The failure and what lies under it, outermost first. -/
def chain (failure : Failure) : List String :=
  match failure with
  | .io reason => [failure.message, reason]
  | _ => [failure.message]

/-- A text with every line but the first indented. -/
def indentLines (indent text : String) : String :=
  ("\n" ++ indent).intercalate (text.splitOn "\n")

/-- One numbered cause. -/
def numbered (index : Nat) (text : String) : String :=
  SourceMap.padLeft 5 (toString index) ++ ": " ++ indentLines "       " text ++ "\n"

/-- The causes under a message. -/
def causes : List String → String
  | [] => ""
  | [text] => "\nCaused by:\n    " ++ indentLines "    " text ++ "\n"
  | texts => "\nCaused by:\n" ++ String.join (texts.mapIdx numbered)

/-- A chain of messages as the program prints it before it ends. -/
def report : List String → String
  | [] => ""
  | text :: rest => "Error: " ++ text ++ "\n" ++ causes rest

end Failure

end PageScript
