import PageScript.Literal.Items
import PageScript.Source.Map

/-!
# Literal listings and reports

A listing of literals has one line for each item: where it stands, and its value
or what is wrong with it.  A report keeps only what is wrong.  Both show the
offending source line below the message where the page is known.
-/

namespace PageScript.Listing

/-- Something wrong in a page. -/
structure Problem where
  location : String
  message : String
  /-- The offending line with the text underlined. -/
  snippet : Option String
  deriving DecidableEq

namespace Problem

/-- The problem that an error points out. -/
def ofError (map : SourceMap) (error : LiteralError) : Problem where
  location := map.location error.span
  message := error.message
  snippet := map.snippet? error.span

/-- The rows under a message. -/
def snippetRows (problem : Problem) : String :=
  match problem.snippet with
  | some snippet => snippet ++ "\n"
  | none => ""

/-- A problem as a check reports it. -/
def report (problem : Problem) : String :=
  problem.location ++ ": " ++ problem.message ++ "\n" ++ problem.snippetRows

/-- A problem as a listing of literals shows it. -/
def listed (problem : Problem) : String :=
  problem.location ++ ": error: " ++ problem.message ++ "\n" ++ problem.snippetRows

end Problem

/-- One item of a listing of literals. -/
def item (map : SourceMap) : Literal.Item → String
  | .ok expr => map.location expr.span ++ ": " ++ expr.render ++ "\n"
  | .error error => (Problem.ofError map error).listed

/-- A listing of literals. -/
def literals (map : SourceMap) (items : List Literal.Item) : String :=
  String.join (items.map (item map))

/-- What is wrong among items, in order. -/
def problems (map : SourceMap) (items : List Literal.Item) : List Problem :=
  items.filterMap fun
    | .ok _ => none
    | .error error => some (Problem.ofError map error)

end PageScript.Listing
