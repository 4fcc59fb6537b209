import PageScript.Lexeme

/-!
# Heredoc lines

A heredoc is opened by a header line, which gives it a label, and closed by the
first later line that begins with that label after any blanks.  The line break
before the closing line belongs to the closer, so it is no part of the string.
-/

namespace PageScript.Heredoc

/-- The line that opens a heredoc: its length with the line break, and its label. -/
structure Header where
  size : Nat
  label : Bytes
  deriving DecidableEq

/-- The three bytes that may open a header. -/
def opener : Bytes :=
  Bytes.ascii "<<<"

/-- Length of the double quote at the front. -/
def quoteLength (bytes : Bytes) : Nat :=
  if Bytes.startsWhere (· == Byte.doubleQuote) bytes then 1 else 0

/-- The header at the front: the opener, blanks, a label that may stand between
double quotes, and a line break. -/
def header? (bytes : Bytes) : Option Header :=
  if opener.isPrefixOf bytes then
    let indent := Bytes.runLength Byte.isBlank (bytes.drop 3)
    let quote := quoteLength (bytes.drop (3 + indent))
    let named := bytes.drop (3 + indent + quote)
    let length := Bytes.nameLength named
    let closing := named.drop length
    let lineBreak := Bytes.lineBreakLength (closing.drop quote)
    if length = 0 then none
    else if quote = 1 && quoteLength closing = 0 then none
    else if lineBreak = 0 then none
    else some ⟨3 + indent + quote + length + quote + lineBreak, named.take length⟩
  else
    none

/-- Length of the closing line at the front, up to the end of the label: blanks,
then the label, not continued as a longer name. -/
def closingLength? (label bytes : Bytes) : Option Nat :=
  let indent := Bytes.runLength Byte.isBlank bytes
  let line := bytes.drop indent
  if label.isPrefixOf line && !Bytes.startsWhere Byte.isNamePart (line.drop label.length) then
    some (indent + label.length)
  else
    none

/-- Length of the closer at the front: a line break and a closing line. -/
def closerLength? (label bytes : Bytes) : Option Nat :=
  let lineBreak := Bytes.lineBreakLength bytes
  if lineBreak = 0 then
    none
  else
    (closingLength? label (bytes.drop lineBreak)).map (lineBreak + ·)

end PageScript.Heredoc
