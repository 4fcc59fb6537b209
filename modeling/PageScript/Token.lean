import PageScript.Span
import PageScript.Text.Quoted
import PageScript.Token.Kind

/-!
# Tokens

A token is a classified piece of a page: its kind, where it stands and its bytes.
Two tokens are equal when all three agree.
-/

namespace PageScript

/-- A classified piece of a page. -/
structure Token where
  kind : Kind
  span : Span
  data : Bytes
  deriving DecidableEq

/-- What a reader of tokens reports about a token that it cannot use. -/
structure Unexpected where
  kind : Kind
  text : String
  span : Span
  deriving DecidableEq

/-- What is said about an unexpected token. -/
def Unexpected.message (unexpected : Unexpected) : String :=
  "unexpected " ++ unexpected.kind.listedName ++ " " ++ Text.quoted unexpected.text ++
    " at " ++ unexpected.span.position

namespace Token

/-- The text of a token, broken encodings replaced. -/
def text (token : Token) : String :=
  Utf8.lossy token.data

/-- The first character of a token, if it has any bytes. -/
def firstChar? (token : Token) : Option Char :=
  (Utf8.next? token.data).map (·.1)

/-- Whether this is a single-character token of the character `char`. -/
def isChar (token : Token) (char : Char) : Bool :=
  token.kind == .char && token.firstChar? == some char

/-- The report about this token where it cannot be used. -/
def unexpected (token : Token) : Unexpected :=
  ⟨token.kind, token.text, token.span⟩

/-- A token on one line: its kind and its quoted text. -/
def summary (token : Token) : String :=
  token.kind.listedName ++ " " ++ Text.quoted token.text

/-- The record shown when a token is inspected. -/
def describe (token : Token) : String :=
  let span := token.span
  "Token \x7b kind: " ++ token.kind.title ++
    s!", span: Span \x7b start: {span.start}, end: {span.stop}, line: {span.line.toNat}" ++
    s!", column: {span.column.toNat}, file_id: FileId({span.file.index}) \x7d, data: " ++
    Text.quoted token.text ++ " \x7d"

end Token

end PageScript
