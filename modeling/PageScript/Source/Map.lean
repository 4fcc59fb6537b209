import PageScript.Source.File

/-!
# Source maps

A source map numbers the pages of one run and turns spans into what a reader sees:
a location such as `page.php:3:7`, and a snippet with the offending text
underlined.
-/

namespace PageScript

/-- The pages of one run, in the order in which they were added. -/
structure SourceMap where
  files : List SourceFile := []
  deriving DecidableEq, Inhabited

/-- Why a source map cannot answer. -/
inductive SourceMapError where
  | fileNotFound (description : String)
  deriving DecidableEq

/-- What is said about a failed look-up. -/
def SourceMapError.message : SourceMapError → String
  | .fileNotFound description => "File not found: " ++ description

namespace SourceMap

/-- Number of pages. -/
def fileCount (map : SourceMap) : Nat :=
  map.files.length

/-- Register a page under the next number. -/
def addFile (map : SourceMap) (name : String) (content : Bytes) : SourceMap × FileId :=
  let id : FileId := ⟨map.fileCount⟩
  (⟨map.files ++ [⟨id, name, content⟩]⟩, id)

/-- The page with a number. -/
def get? (map : SourceMap) (id : FileId) : Option SourceFile :=
  map.files[id.index]?

/-- The page with a number, or the reason that there is none. -/
def getFile (map : SourceMap) (id : FileId) : Except SourceMapError SourceFile :=
  match map.get? id with
  | some file => .ok file
  | none => .error (.fileNotFound s!"FileId({id.index})")

/-- Where a span begins, with the name of its page if the page is known. -/
def location (map : SourceMap) (span : Span) : String :=
  match map.get? span.file with
  | some file => file.name ++ ":" ++ span.position
  | none => span.position

/-- A text filled up with spaces on its left. -/
def padLeft (width : Nat) (text : String) : String :=
  String.ofList (List.replicate (width - text.length) ' ') ++ text

/-- Width of the column of line numbers: that of the last line number, and at
least three. -/
def gutterWidth (file : SourceFile) : Nat :=
  max 3 (toString file.lineCount).length

/-- Number of carets under a span on a line of `lineLength` bytes.  A span that
runs past its first line is underlined to the end of that line. -/
def underlineLength (span : Span) (lineLength : Nat) : Nat :=
  max 1 (min span.size (lineLength - (span.column.toNat - 1)))

/-- A span as three rows: its location, its first line behind the line number, and
carets under the text.  There is none if the page or the line is unknown. -/
def snippet? (map : SourceMap) (span : Span) : Option String :=
  match map.get? span.file with
  | none => none
  | some file =>
      match file.lineAt? span.line.toNat with
      | none => none
      | some line =>
          let width := gutterWidth file
          let blanks := String.ofList (List.replicate (span.column.toNat - 1) ' ')
          let carets := String.ofList (List.replicate (underlineLength span line.length) '^')
          some ("--> " ++ map.location span ++ "\n" ++
            padLeft width (toString span.line.toNat) ++ " | " ++ Utf8.lossy line ++ "\n" ++
            padLeft width "" ++ " | " ++ blanks ++ carets)

end SourceMap

end PageScript
