import PageScript.Listing.Tokens
import PageScript.Reading
import PageScript.Settings.Toml.Document

/-!
# Settings

Settings have three sections, each with one value.  Everything that a settings text
leaves out has a default, and names that mean nothing are passed over.  A value of
the wrong type or out of range refuses the whole text.
-/

namespace PageScript

/-- How the program works when its arguments do not say otherwise. -/
structure Settings where
  /-- Tokens held between scanner and reader. -/
  channelCapacity : Nat := 2
  /-- The form of token listings. -/
  format : Listing.Format := .text
  /-- Number of files checked side by side; none for one on each processor. -/
  jobs : Option Nat := none
  deriving DecidableEq

namespace Settings

/-- The options of a scan of one page. -/
def scanOptions (settings : Settings) (file : FileId) : ScanOptions :=
  ⟨file, settings.channelCapacity⟩

/-- The value of a section under the name of its only field.  A section may also be
an array whose first element is that field.  The outer result is missing if the
section is neither. -/
def sectionValue? (name : String) : Option Toml.Value → Option (Option Toml.Value)
  | none => some none
  | some (.table _ entries) => some (Toml.Entries.find? entries name)
  | some (.array elements) => some elements.head?
  | some _ => none

/-- A whole number below a limit, or the default if no value is given. -/
def numberBelow? (limit : Nat) (fallback : Option Nat) :
    Option Toml.Value → Option (Option Nat)
  | none => some fallback
  | some (.integer value) =>
      if 0 ≤ value && value < limit then some (some value.toNat) else none
  | some _ => none

/-- The form of a listing, or plain text if no value is given. -/
def format? : Option Toml.Value → Option Listing.Format
  | none => some .text
  | some (.text name) => Listing.Format.ofName? name
  | some _ => none

/-- The settings that a table holds. -/
def ofEntries? (entries : Toml.Entries) : Option Settings := do
  let capacity ← sectionValue? "channel_capacity" (Toml.Entries.find? entries "lexer")
  let capacity ← numberBelow? UInt64.size (some 2) capacity
  let format ← sectionValue? "format" (Toml.Entries.find? entries "output")
  let format ← format? format
  let jobs ← sectionValue? "jobs" (Toml.Entries.find? entries "check")
  let jobs ← numberBelow? UInt32.size none jobs
  return { channelCapacity := capacity.getD 2, format, jobs }

/-- The settings that a text describes. -/
def parse? (text : String) : Option Settings :=
  (Toml.document? text).bind ofEntries?

end Settings

end PageScript
