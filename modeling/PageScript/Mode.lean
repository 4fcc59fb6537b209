import PageScript.Grammar
import PageScript.Lexeme.Comment
import PageScript.Lexeme.Delimited
import PageScript.Lexeme.Number
import PageScript.Lexeme.Operator
import PageScript.Lexeme.Tag

/-!
# Modes of a page

A page is text, script, or the body of a string inside a script.  In each mode one
call cuts lexemes from the front of the remaining bytes, perhaps with a warning,
and says which mode comes next.  What is cut depends on the mode and on the
remaining bytes alone, so a scan can be taken up again wherever a mode changes.

`Mode.grammar` lets the modes drive a scanner, and `PageScript.scan` is a whole
run of it.
-/

namespace PageScript

/-- What the remaining bytes are read as. -/
inductive Mode where
  | text
  | script
  | body (enclosure : Enclosure)
  deriving DecidableEq

/-- A construct that the end of the page cuts off. -/
inductive Unterminated where
  | comment
  | singleQuoted
  | body (enclosure : Enclosure)
  deriving DecidableEq

/-- The warning about an unterminated construct that begins at a position. -/
def Unterminated.warning (line column : UInt32) : Unterminated → Warning
  | .comment => .comment line column
  | .singleQuoted => .singleQuoted line column
  | .body enclosure => .body enclosure

/-- What one call takes from the remaining bytes. -/
structure Cut where
  /-- The pieces from the front on, in order. -/
  lexemes : List Lexeme
  /-- A construct that the end of the page cuts off. -/
  unterminated : Option Unterminated := none
  /-- The mode of the bytes after the pieces, if the scan goes on. -/
  next : Option Mode
  deriving DecidableEq

namespace Cut

/-- Nothing is left to take. -/
def stop : Cut where
  lexemes := []
  next := none

/-- One piece, then script. -/
def one (kind : Kind) (size : Nat) : Cut where
  lexemes := [⟨kind, size⟩]
  next := some .script

end Cut

namespace Mode

/-- Text up to the first open tag, and the tag. -/
def cutText (bytes : Bytes) : Cut :=
  match Lexeme.firstTag? bytes 0 with
  | some (offset, tag) => { lexemes := Lexeme.html offset ++ [tag], next := some .script }
  | none => { lexemes := Lexeme.html bytes.length, next := none }

/-- A block comment, which the end of the page may cut off. -/
def cutBlockComment (bytes : Bytes) : Cut :=
  let kind := Lexeme.blockCommentKind bytes
  match Lexeme.blockCommentLength? bytes with
  | some size => Cut.one kind size
  | none => { Cut.one kind bytes.length with unterminated := some .comment }

/-- A single-quoted string.  One without its closing quote is the end of the scan. -/
def cutSingleQuoted (bytes : Bytes) : Cut :=
  match Lexeme.singleQuoteLength? (bytes.drop 1) with
  | some size => Cut.one .singleQuoted (size + 1)
  | none =>
      { lexemes := [⟨.invalid, bytes.length⟩]
        unterminated := some .singleQuoted
        next := none }

/-- An operator or a single character. -/
def cutOperator (bytes : Bytes) : Cut :=
  { lexemes := [Lexeme.operator bytes], next := some .script }

/-- A heredoc header, with the closing line if that follows at once.  Bytes that
make no header are operators. -/
def cutHeredoc (bytes : Bytes) : Cut :=
  match Heredoc.header? bytes with
  | none => cutOperator bytes
  | some header =>
      match Heredoc.closingLength? header.label (bytes.drop header.size) with
      | some size =>
          { lexemes := [⟨.heredocStart, header.size⟩, ⟨.heredocEnd, size⟩]
            next := some .script }
      | none =>
          { lexemes := [⟨.heredocStart, header.size⟩]
            next := some (.body (.heredoc header.label)) }

/-- The next piece of a script. -/
def cutScript : Bytes → Cut
  | [] => Cut.stop
  | first :: rest =>
      let bytes := first :: rest
      let secondIs (byte : UInt8) : Bool := Bytes.startsWhere (· == byte) rest
      if Byte.isSpace first then
        Cut.one .whitespace (Bytes.runLength Byte.isSpace bytes)
      else if first = Byte.question && secondIs Byte.greater then
        { lexemes := [⟨.closeTag, Lexeme.closeTagLength bytes⟩], next := some .text }
      else if first = Byte.hash || (first = Byte.slash && secondIs Byte.slash) then
        Cut.one .comment (Lexeme.lineCommentLength bytes)
      else if first = Byte.slash && secondIs Byte.star then
        cutBlockComment bytes
      else if Lexeme.startsVariable bytes then
        Cut.one .variable (Lexeme.variableLength bytes)
      else if Byte.isDigit first ||
          (first = Byte.dot && Bytes.startsWhere Byte.isDigit rest) then
        { lexemes := [Lexeme.number bytes], next := some .script }
      else if first = Byte.singleQuote then
        cutSingleQuoted bytes
      else if first = Byte.doubleQuote then
        { lexemes := [⟨.char, 1⟩], next := some (.body .doubleQuote) }
      else if first = Byte.backtick then
        { lexemes := [⟨.char, 1⟩], next := some (.body .backtick) }
      else if Byte.isNameStart first then
        let size := Bytes.nameLength bytes
        Cut.one (Kind.ofName (bytes.take size)) size
      else
        cutHeredoc bytes

/-- The body of a string up to its terminator, or to the end of the page. -/
def cutBody (enclosure : Enclosure) (bytes : Bytes) : Cut :=
  match Lexeme.body enclosure bytes with
  | (lexemes, true) => { lexemes, next := some .script }
  | (lexemes, false) =>
      { lexemes, unterminated := some (.body enclosure), next := none }

/-- What one call takes from the front in a mode. -/
def cut : Mode → Bytes → Cut
  | .text, bytes => cutText bytes
  | .script, bytes => cutScript bytes
  | .body enclosure, bytes => cutBody enclosure bytes

/-- Publish lexemes one after the other. -/
def publish : List Lexeme → Scanner → Option Fault × Scanner
  | [], scanner => (none, scanner)
  | lexeme :: rest, scanner =>
      let moved := scanner.withCursor (scanner.cursor.skip lexeme.size)
      match moved.emit lexeme.kind with
      | .error fault => (some fault, moved)
      | .ok (_, after) => publish rest after

/-- One call of a mode on a scanner. -/
def call (mode : Mode) (scanner : Scanner) : Outcome Mode × Scanner :=
  let cut := mode.cut scanner.cursor.ahead
  let warned :=
    match cut.unterminated with
    | none => scanner
    | some construct =>
        scanner.warn (construct.warning scanner.cursor.line scanner.cursor.column)
  match publish cut.lexemes warned with
  | (some fault, after) => (.fail fault, after)
  | (none, after) =>
      match cut.next with
      | none => (.stop, after)
      | some mode => (.next mode, after)

/-- The modes as a state machine. -/
def grammar : Grammar where
  State := Mode
  call := call

end Mode

/-- Scan a whole page from a mode on. -/
def scan (mode : Mode) (bytes : Bytes) (file : FileId) : Run :=
  Mode.grammar.run mode (Scanner.ofBytes bytes file)

end PageScript
