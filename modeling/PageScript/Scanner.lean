import PageScript.Cursor
import PageScript.Token

/-!
# Scanners

A scanner moves a cursor over a page and publishes tokens to a reader.  The reader
may go away at any time.  The first token published after that is lost and halts
the scanner; the mark of the cursor moves on all the same.
-/

namespace PageScript

/-- The construct whose body runs up to its own terminator. -/
inductive Enclosure where
  | doubleQuote
  | backtick
  | heredoc (label : Bytes)
  deriving DecidableEq

/-- What is reported about a construct that the end of the page cuts off. -/
inductive Warning where
  /-- A block comment, with the position of its opener. -/
  | comment (line column : UInt32)
  /-- A single-quoted string, with the position of its opener. -/
  | singleQuoted (line column : UInt32)
  /-- The body of a string with variables. -/
  | body (enclosure : Enclosure)
  deriving DecidableEq

/-- A cursor whose pending text is published token by token. -/
structure Scanner where
  cursor : Cursor
  file : FileId
  /-- Whether the reader of the tokens is still there. -/
  connected : Bool := true
  /-- Whether a token was lost because the reader was gone. -/
  halted : Bool := false
  /-- The tokens that were published, latest first. -/
  published : List Token := []
  /-- The warnings that were given, latest first. -/
  warnings : List Warning := []
  deriving DecidableEq

namespace Scanner

/-- The scanner before the first byte of a page. -/
def ofBytes (bytes : Bytes) (file : FileId) : Scanner where
  cursor := Cursor.ofBytes bytes
  file := file

/-- The tokens that were published, in order. -/
def tokens (scanner : Scanner) : List Token :=
  scanner.published.reverse

/-- The reader goes away. -/
def disconnect (scanner : Scanner) : Scanner :=
  { scanner with connected := false }

/-- Change the place in the page. -/
def withCursor (scanner : Scanner) (cursor : Cursor) : Scanner :=
  { scanner with cursor }

/-- Give a warning. -/
def warn (scanner : Scanner) (warning : Warning) : Scanner :=
  { scanner with warnings := warning :: scanner.warnings }

/-- Publish the pending text as a token, even if it is empty.  The result is the
token that reached the reader, if it did. -/
def emit (scanner : Scanner) (kind : Kind) : Except Fault (Option Token × Scanner) :=
  match scanner.cursor.pending, scanner.cursor.takeSpan scanner.file with
  | .ok data, .ok (span, cursor) =>
      if scanner.connected then
        let token : Token := ⟨kind, span, data⟩
        .ok (some token, { scanner with cursor, published := token :: scanner.published })
      else
        .ok (none, { scanner with cursor, halted := true })
  | .error fault, _ => .error fault
  | _, .error fault => .error fault

/-- Publish the pending text as a token unless it is empty. -/
def emitPending (scanner : Scanner) (kind : Kind) : Except Fault (Option Token × Scanner) :=
  match scanner.cursor.pending with
  | .error fault => .error fault
  | .ok [] => .ok (none, scanner)
  | .ok (_ :: _) => scanner.emit kind

end Scanner

end PageScript
