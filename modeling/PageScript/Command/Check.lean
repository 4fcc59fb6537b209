import PageScript.Command.Disk
import PageScript.Command.Failure
import PageScript.Listing.Literals
import PageScript.Log.Event
import PageScript.Settings

/-!
# Checking pages

A page is loaded from the disk into a source map of its own, under the path as it
was given, and scanned as text.  A check compiles its literals and reports what is
wrong with them.  A check of several pages fails if any of them has problems or
cannot be loaded; reports come in the order of the inputs.
-/

namespace PageScript

/-- What a step gives, with the events it reports on the way. -/
structure Logged (α : Type) where
  value : α
  events : List Event := []

/-- A page in a source map of its own. -/
structure LoadedPage where
  map : SourceMap
  file : SourceFile
  deriving DecidableEq

/-- Load a page by its path. -/
def loadPage (disk : Disk) (path : String) : Except Failure LoadedPage :=
  match disk path with
  | .missing => .error (.inputMissing path)
  | .directory => .error (.inputNotFile path)
  | .unreadable reason => .error (.io reason)
  | .file content =>
      let (map, id) := SourceMap.addFile {} path content
      match map.getFile id with
      | .ok file => .ok ⟨map, file⟩
      | .error error => .error (.sourceMap error)

namespace LoadedPage

/-- Read the tokens of the page, which begins as text. -/
def tokens (page : LoadedPage) (settings : Settings) : Logged (List Token) :=
  let reading := (settings.scanOptions page.file.id).read .text page.file.content
  { value := reading.tokens
    events :=
      [.scannerStarted page.file.id page.file.content.length] ++
        reading.warnings.map .warned ++
        [.scannerFinished page.file.id reading.tokens.length reading.halted] }

end LoadedPage

/-- The event of a literal that the end of the page cuts off. -/
def streamEndedEvent? : Literal.Item → Option Event
  | .error (.unexpectedEnd literal span) => some (.streamEnded literal span)
  | _ => none

namespace LoadedPage

/-- Compile the literals of the page. -/
def items (page : LoadedPage) (settings : Settings) : Logged (List Literal.Item) :=
  let read := page.tokens settings
  let items := Literal.items read.value
  { value := items, events := read.events ++ items.filterMap streamEndedEvent? }

end LoadedPage

/-- Check one page. -/
def checkPage (disk : Disk) (settings : Settings) (path : String) :
    Logged (Except Failure (List Listing.Problem)) :=
  match loadPage disk path with
  | .error failure => { value := .error failure }
  | .ok page =>
      let compiled := page.items settings
      let problems := Listing.problems page.map compiled.value
      { value := .ok problems
        events := compiled.events ++ [.checkedFile page.file.name problems.length] }

/-- The outcome for one input. -/
structure PageReport where
  path : String
  outcome : Except Failure (List Listing.Problem)

namespace PageReport

/-- Whether the input counts as failed. -/
def hasFailed (report : PageReport) : Bool :=
  match report.outcome with
  | .ok [] => false
  | _ => true

/-- What is printed about the input. -/
def render (report : PageReport) : String :=
  match report.outcome with
  | .ok problems => String.join (problems.map Listing.Problem.report)
  | .error failure => report.path ++ ": " ++ failure.message ++ "\n"

end PageReport

/-- What a command prints, and whether it fails. -/
structure Printed where
  output : String
  failure : Option Failure := none

/-- Check pages in the order in which they are given. -/
def checkPages (disk : Disk) (settings : Settings) (paths : List String) (jobs : Nat) :
    Logged Printed :=
  if paths.isEmpty then
    { value := { output := "", failure := some .noInputs } }
  else
    let checked := paths.map fun path => (path, checkPage disk settings path)
    let reports := checked.map fun (path, logged) => PageReport.mk path logged.value
    let failed := reports.countP PageReport.hasFailed
    let output := String.join (reports.map PageReport.render)
    { value :=
        if failed = 0 then
          { output :=
              output ++ toString reports.length ++ " file(s) checked, no problems found\n" }
        else
          { output, failure := some (.filesFailed failed) }
      events :=
        [.checkingFiles (max 1 jobs)] ++ checked.flatMap (fun (_, logged) => logged.events) ++
          [.checkFinished reports.length failed] }

end PageScript
