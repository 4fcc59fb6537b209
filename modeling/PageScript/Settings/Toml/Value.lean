/-!
# Values of a settings text

A settings text is a table of named values.  How a table came about decides what
may still be added to it: a table that only a longer header or a dotted key implied
may be filled in later, a table with a header of its own or in braces may not.

`insert?` adds a value under a dotted key and `withTable?` works on the table that
a header names.  Both refuse a name that is already taken.
-/

namespace PageScript.Toml

/-- How a table came about. -/
inductive Origin where
  /-- Named only as the beginning of a longer header. -/
  | implied
  /-- Named by a header of its own. -/
  | header
  /-- Named by all but the last part of a dotted key. -/
  | dotted
  /-- Written in braces. -/
  | inline
  deriving DecidableEq

/-- A value of a settings text. -/
inductive Value where
  | text (value : String)
  | integer (value : Int)
  | float
  | boolean (value : Bool)
  | time
  | array (elements : List Value)
  | table (origin : Origin) (entries : List (String × Value))
  /-- The tables of a repeated header, latest first. -/
  | tables (latest : List (String × Value)) (earlier : List Value)

/-- The named values of a table, in order. -/
abbrev Entries := List (String × Value)

namespace Entries

/-- The value under a name. -/
def find? (entries : Entries) (name : String) : Option Value :=
  (List.find? (fun entry => entry.1 == name) entries).map (·.2)

/-- Put a value under a name, in place of the one there. -/
def set (entries : Entries) (name : String) (value : Value) : Entries :=
  if entries.any fun entry => entry.1 == name then
    entries.map fun entry => if entry.1 == name then (name, value) else entry
  else
    entries ++ [(name, value)]

/-- Take a name away. -/
def erase (entries : Entries) (name : String) : Entries :=
  entries.filter fun entry => entry.1 != name

/-- Add a value under a name that is not taken. -/
def add? (entries : Entries) (name : String) (value : Value) : Option Entries :=
  match find? entries name with
  | some _ => none
  | none => some (set entries name value)

/-- Add a value under a dotted key.  All parts but the last name tables that dotted
keys made or that may be filled in by them; the table that receives the value must
be of the former sort. -/
def insert? (entries : Entries) : List String → Value → Option Entries
  | [], _ => none
  | [name], value => add? entries name value
  | name :: following :: rest, value =>
      match find? entries name with
      | none =>
          (insert? [] (following :: rest) value).map fun inner =>
            set entries name (.table .dotted inner)
      | some (.table .dotted inner) =>
          (insert? inner (following :: rest) value).map fun inner =>
            set entries name (.table .dotted inner)
      | some (.table .implied inner) =>
          if rest.isEmpty then none
          else
            (insert? inner (following :: rest) value).map fun inner =>
              set entries name (.table .implied inner)
      | some (.tables latest earlier) =>
          if rest.isEmpty then none
          else
            (insert? latest (following :: rest) value).map fun inner =>
              set entries name (.tables inner earlier)
      | some _ => none

/-- Work on the table that the parts of a header lead to, making tables that are
missing on the way.  Of the tables of a repeated header the latest is meant. -/
def withTable? {Result : Type} (entries : Entries) (path : List String)
    (work : Entries → Option (Result × Entries)) : Option (Result × Entries) :=
  match path with
  | [] => work entries
  | name :: rest =>
      match find? entries name with
      | none =>
          (withTable? [] rest work).map fun (result, inner) =>
            (result, set entries name (.table .implied inner))
      | some (.table .inline _) => none
      | some (.table origin inner) =>
          (withTable? inner rest work).map fun (result, inner) =>
            (result, set entries name (.table origin inner))
      | some (.tables latest earlier) =>
          (withTable? latest rest work).map fun (result, inner) =>
            (result, set entries name (.tables inner earlier))
      | some _ => none

/-- The entries that a header for a single table begins with.  The name is given
up to the header, which puts the table back when it is complete. -/
def openTable? (name : String) (entries : Entries) : Option (Entries × Entries) :=
  match find? entries name with
  | none => some ([], entries)
  | some (.table .implied inner) => some (inner, erase entries name)
  | some _ => none

/-- Check that a name is free for one more table of a repeated header. -/
def openTables? (name : String) (entries : Entries) : Option (Unit × Entries) :=
  match find? entries name with
  | none => some ((), entries)
  | some (.tables _ _) => some ((), entries)
  | some _ => none

/-- Put a complete table under its name. -/
def closeTable? (name : String) (table : Entries) (entries : Entries) :
    Option (Unit × Entries) :=
  (add? entries name (.table .header table)).map fun entries => ((), entries)

/-- Put one more complete table of a repeated header under its name. -/
def closeTables? (name : String) (table : Entries) (entries : Entries) :
    Option (Unit × Entries) :=
  match find? entries name with
  | none => some ((), set entries name (.tables table []))
  | some (.tables latest earlier) =>
      some ((), set entries name (.tables table (.table .header latest :: earlier)))
  | some _ => none

end Entries

end PageScript.Toml
