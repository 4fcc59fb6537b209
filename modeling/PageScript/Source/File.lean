import PageScript.Span
import PageScript.Text.Quoted

/-!
# Pages as files

A source file is a page with a number and a name.  Its line table holds the
offset at which each line begins: zero, and the offset after every line feed.
-/

namespace PageScript

/-- A page that the front end was given. -/
structure SourceFile where
  id : FileId
  name : String
  content : Bytes
  deriving DecidableEq

namespace SourceFile

/-- Offsets just after each line feed, where `offset` is that of the first byte. -/
def lineStartsAfter (offset : Nat) : Bytes → List Nat
  | [] => []
  | byte :: rest =>
      if byte = Byte.lineFeed then
        (offset + 1) :: lineStartsAfter (offset + 1) rest
      else
        lineStartsAfter (offset + 1) rest

/-- The offset at which each line begins. -/
def lineStarts (file : SourceFile) : List Nat :=
  0 :: lineStartsAfter 0 file.content

/-- Number of lines.  An empty page has one. -/
def lineCount (file : SourceFile) : Nat :=
  file.lineStarts.length

/-- A byte of a line break. -/
def isLineBreak (byte : UInt8) : Bool :=
  byte == Byte.lineFeed || byte == Byte.carriageReturn

/-- The bytes without the line breaks at their end. -/
def withoutLineBreaks (bytes : Bytes) : Bytes :=
  (bytes.reverse.dropWhile isLineBreak).reverse

/-- The text of a line, counted from one, without its line break. -/
def lineAt? (file : SourceFile) (number : Nat) : Option Bytes :=
  match number with
  | 0 => none
  | index + 1 =>
      match file.lineStarts[index]? with
      | none => none
      | some start =>
          let stop := file.lineStarts[index + 1]?.getD file.content.length
          some (withoutLineBreaks ((file.content.take stop).drop start))

/-- The record shown when a file is inspected. -/
def describe (file : SourceFile) : String :=
  s!"SourceFile \x7b id: FileId({file.id.index}), name: " ++ Text.quoted file.name ++
    s!", line_count: {file.lineCount} \x7d"

end SourceFile

end PageScript
