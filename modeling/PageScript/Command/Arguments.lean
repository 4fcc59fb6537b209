import PageScript.Listing.Tokens
import PageScript.Text.Whole

/-!
# Arguments

The arguments are options of the program, the name of a command, and options and
inputs of the command.  The options of the program may also stand after the name of
the command; what stands there wins.  An option is given at most once in each of the
two places.

Arguments are read from left to right, and the first that cannot be used ends the
reading.  So does a request for help or for the version.  Variables of the
environment stand in for options of the program that are not given.
-/

namespace PageScript

/-- Where an argument stands: before the name of a command, or after it. -/
inductive Scope where
  | program
  | tokens
  | strings
  | check
  deriving DecidableEq

namespace Scope

/-- The commands. -/
def commands : List Scope :=
  [.tokens, .strings, .check]

/-- The name of a command. -/
def name : Scope → String
  | .program => "phoxt"
  | .tokens => "tokens"
  | .strings => "strings"
  | .check => "check"

/-- The command with a name. -/
def ofName? (text : String) : Option Scope :=
  commands.find? fun scope => scope.name == text

/-- The title under which a scope gives its version. -/
def title : Scope → String
  | .program => Scope.program.name
  | scope => Scope.program.name ++ "-" ++ scope.name

end Scope

/-- Why the reading of arguments ends early. -/
inductive Halt where
  /-- An argument cannot be used, or one is missing. -/
  | usage
  | help
  | version (scope : Scope)
  deriving DecidableEq

/-- An option without a value. -/
inductive Switch where
  | verbose
  | noColor
  | help
  | version
  deriving DecidableEq

/-- An option with a value. -/
inductive Parameter where
  | config
  | channelCapacity
  | format
  | jobs
  deriving DecidableEq

/-- An option. -/
inductive OptionName where
  | switch (switch : Switch)
  | parameter (parameter : Parameter)
  deriving DecidableEq

namespace OptionName

/-- The option with a long name. -/
def ofLong? (scope : Scope) (name : String) : Option OptionName :=
  if name = "verbose" then some (.switch .verbose)
  else if name = "no-color" then some (.switch .noColor)
  else if name = "help" then some (.switch .help)
  else if name = "version" then some (.switch .version)
  else if name = "config" then some (.parameter .config)
  else if name = "channel-capacity" then some (.parameter .channelCapacity)
  else if name = "format" && scope == .tokens then some (.parameter .format)
  else if name = "jobs" && scope == .check then some (.parameter .jobs)
  else none

/-- The option with a letter. -/
def ofShort? (scope : Scope) (letter : Char) : Option OptionName :=
  if letter = 'v' then some (.switch .verbose)
  else if letter = 'h' then some (.switch .help)
  else if letter = 'V' then some (.switch .version)
  else if letter = 'c' then some (.parameter .config)
  else if letter = 'F' && scope == .tokens then some (.parameter .format)
  else if letter = 'j' && scope == .check then some (.parameter .jobs)
  else none

end OptionName

/-- What was given in one place. -/
structure Given where
  verbose : Bool := false
  noColor : Bool := false
  config : Option String := none
  channelCapacity : Option Nat := none
  format : Option Listing.Format := none
  jobs : Option Nat := none
  inputs : List String := []
  deriving DecidableEq

namespace Given

/-- Give a switch. -/
def addSwitch (given : Given) (scope : Scope) : Switch → Except Halt Given
  | .help => .error .help
  | .version => .error (.version scope)
  | .verbose => if given.verbose then .error .usage else .ok { given with verbose := true }
  | .noColor => if given.noColor then .error .usage else .ok { given with noColor := true }

/-- Put a value in a place that must be free.  A missing value cannot be used. -/
def fill {α : Type} (place value : Option α) (result : Option α → Given) :
    Except Halt Given :=
  match place, value with
  | none, some _ => .ok (result value)
  | _, _ => .error .usage

/-- Give a value. -/
def addValue (given : Given) (parameter : Parameter) (text : String) : Except Halt Given :=
  match parameter with
  | .config =>
      fill given.config (if text = "" then none else some text) fun value =>
        { given with config := value }
  | .channelCapacity =>
      fill given.channelCapacity ((Text.wholeNumber? text).filter (· < UInt64.size)) fun value =>
        { given with channelCapacity := value }
  | .format =>
      fill given.format (Listing.Format.ofName? text) fun value =>
        { given with format := value }
  | .jobs =>
      fill given.jobs ((Text.wholeNumber? text).filter fun jobs => 1 ≤ jobs && jobs < UInt32.size)
        fun value => { given with jobs := value }

/-- Give an input.  Only a check takes more than one. -/
def addInput (given : Given) (scope : Scope) (path : String) : Except Halt Given :=
  if path = "" then .error .usage
  else if scope == .check || given.inputs.isEmpty then
    .ok { given with inputs := given.inputs ++ [path] }
  else .error .usage

/-- Give the letters of one argument.  The result names a parameter whose value is
the next argument. -/
def addLetters (given : Given) (scope : Scope) :
    List Char → Except Halt (Given × Option Parameter)
  | [] => .ok (given, none)
  | letter :: rest =>
      match OptionName.ofShort? scope letter with
      | none => .error .usage
      | some (.switch switch) =>
          match given.addSwitch scope switch with
          | .error halt => .error halt
          | .ok given => given.addLetters scope rest
      | some (.parameter parameter) =>
          match rest with
          | [] => .ok (given, some parameter)
          | '=' :: value =>
              (given.addValue parameter (String.ofList value)).map fun given => (given, none)
          | value =>
              (given.addValue parameter (String.ofList value)).map fun given => (given, none)

/-- Give an option by its long name, perhaps with a value after an equals sign. -/
def addLong (given : Given) (scope : Scope) (text : List Char) :
    Except Halt (Given × Option Parameter) :=
  let name := String.ofList (text.takeWhile (· != '='))
  let value : Option String :=
    match text.dropWhile (· != '=') with
    | [] => none
    | _ :: value => some (String.ofList value)
  match OptionName.ofLong? scope name, value with
  | some (.switch switch), none =>
      (given.addSwitch scope switch).map fun given => (given, none)
  | some (.parameter parameter), some value =>
      (given.addValue parameter value).map fun given => (given, none)
  | some (.parameter parameter), none => .ok (given, some parameter)
  | _, _ => .error .usage

end Given

/-- Whether an argument can be the value of the option before it. -/
def canBeValue (argument : String) : Bool :=
  argument == "-" || !argument.startsWith "-"

/-- Read the arguments of one place.  Before the name of a command the reading ends
at the first argument that is no option; the result names it and what follows. -/
def readPlace (scope : Scope) (given : Given) :
    List String → Except Halt (Given × List String)
  | [] => .ok (given, [])
  | argument :: rest =>
      if argument = "--" then
        if scope == .program then
          .error .usage
        else
          (rest.foldlM (fun (given : Given) path => given.addInput scope path) given).map
            (·, [])
      else if canBeValue argument then
        if scope == .program then
          .ok (given, argument :: rest)
        else
          match given.addInput scope argument with
          | .error halt => .error halt
          | .ok given => readPlace scope given rest
      else
        let added :=
          match argument.toList with
          | '-' :: '-' :: text => given.addLong scope text
          | _ :: letters => given.addLetters scope letters
          | [] => .error .usage
        match added with
        | .error halt => .error halt
        | .ok (given, none) => readPlace scope given rest
        | .ok (given, some parameter) =>
            match rest with
            | [] => .error .usage
            | value :: rest =>
                if canBeValue value then
                  match given.addValue parameter value with
                  | .error halt => .error halt
                  | .ok given => readPlace scope given rest
                else .error .usage

/-- What the program is asked to do. -/
inductive Action where
  | tokens (input : String) (format : Option Listing.Format)
  | strings (input : String)
  | check (inputs : List String) (jobs : Option Nat)
  deriving DecidableEq

/-- The arguments of one run, understood. -/
structure Invocation where
  verbose : Bool
  noColor : Bool
  config : Option String
  channelCapacity : Option Nat
  action : Action
  deriving DecidableEq

namespace Invocation

/-- The action of a command, if its inputs are there. -/
def action? (scope : Scope) (given : Given) : Option Action :=
  match scope, given.inputs with
  | .tokens, [input] => some (.tokens input given.format)
  | .strings, [input] => some (.strings input)
  | .check, inputs@(_ :: _) => some (.check inputs given.jobs)
  | _, _ => none

/-- A switch that a variable stands in for.  The variable is read unless the switch
is given in both places. -/
def switchWith (first second : Bool) (substitute : Option String) : Except Halt Bool :=
  match substitute with
  | none => .ok (first || second)
  | some text =>
      if first && second then .ok true
      else if text = "true" then .ok true
      else if text = "false" then .ok (first || second)
      else .error .usage

/-- The path of the settings, which a variable stands in for. -/
def configWith (first second substitute : Option String) : Except Halt (Option String) :=
  match substitute with
  | none => .ok (second.or first)
  | some text =>
      if text = "" && !(first.isSome && second.isSome) then .error .usage
      else .ok ((second.or first).or (some text))

/-- Understand a request for help with a command. -/
def readHelp (arguments : List String) : Halt :=
  match arguments with
  | [] => .help
  | [name] => if name = "help" || (Scope.ofName? name).isSome then .help else .usage
  | _ => .usage

/-- Understand the arguments, where `lookup` looks up the environment. -/
def read (arguments : List String) (lookup : String → Option String) :
    Except Halt Invocation := do
  let (first, rest) ← readPlace .program {} arguments
  match rest with
  | [] => throw .usage
  | name :: rest =>
      if name = "help" then
        throw (readHelp rest)
      else
        match Scope.ofName? name with
        | none => throw .usage
        | some scope =>
            let (second, _) ← readPlace scope {} rest
            let verbose ← switchWith first.verbose second.verbose (lookup "PHOXT_VERBOSE")
            let noColor ← switchWith first.noColor second.noColor (lookup "PHOXT_NO_COLOR")
            let config ← configWith first.config second.config (lookup "PHOXT_CONFIG")
            match action? scope second with
            | none => throw .usage
            | some action =>
                return {
                  verbose, noColor, config, action
                  channelCapacity := second.channelCapacity.or first.channelCapacity }

end Invocation

end PageScript
