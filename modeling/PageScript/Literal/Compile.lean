import PageScript.Literal.Escape
import PageScript.Literal.Expr
import PageScript.Token

/-!
# Compiling literals

A literal begins at an opening token.  A single-quoted string is complete in that
token.  Any other literal takes tokens from the stream, without looking ahead, up
to the first one that is no part of its body.  If that token is the terminator the
literal is compiled; otherwise the token is reported, and if the stream ends first
the opener is.
-/

namespace PageScript

/-- The forms of string literals. -/
inductive LiteralKind where
  | singleQuoted
  | doubleQuoted
  | backtick
  | heredoc
  deriving DecidableEq

namespace LiteralKind

/-- What a form is called in messages. -/
def text : LiteralKind → String
  | .singleQuoted => "single-quoted string"
  | .doubleQuoted => "double-quoted string"
  | .backtick => "backtick string"
  | .heredoc => "heredoc"

/-- The form of a literal between quotes of a character. -/
def ofQuote (quote : Char) : LiteralKind :=
  if quote = Char.ofNat 0x60 then .backtick else .doubleQuoted

end LiteralKind

/-- Why a literal cannot be compiled. -/
inductive LiteralError where
  /-- A single-quoted string without both of its quotes. -/
  | malformed (span : Span)
  /-- A token that cannot stand in the literal. -/
  | unexpectedToken (unexpected : Unexpected)
  /-- The stream ended in a literal whose opener stands at `span`. -/
  | unexpectedEnd (literal : LiteralKind) (span : Span)
  deriving DecidableEq

namespace LiteralError

/-- What is said about the error. -/
def message : LiteralError → String
  | .malformed span => "malformed string literal at " ++ span.position
  | .unexpectedToken unexpected => unexpected.message
  | .unexpectedEnd literal span =>
      "unexpected end of input in " ++ literal.text ++ " opened at " ++ span.position

/-- What the error points at. -/
def span : LiteralError → Span
  | .malformed span => span
  | .unexpectedToken unexpected => unexpected.span
  | .unexpectedEnd _ span => span

end LiteralError

/-- What ends the body of a literal. -/
inductive Closer where
  /-- The closing line of a heredoc. -/
  | heredoc
  /-- A single-character token of this quote. -/
  | quote (char : Char)
  deriving DecidableEq

/-- The form of the literals that a closer ends. -/
def Closer.literal : Closer → LiteralKind
  | .heredoc => .heredoc
  | .quote char => .ofQuote char

/-- What a token is inside the body of a literal. -/
inductive Role where
  | part (expr : Expr)
  | skipped
  | terminator
  | stray

namespace Literal

/-- Compile a single-quoted string from its token. -/
def compileSingle (token : Token) : Except LiteralError Expr :=
  match token.data with
  | first :: rest =>
      if first = Byte.singleQuote && rest.getLast? == some Byte.singleQuote then
        .ok (.literal (Escape.decodeSingle rest.dropLast) token.span)
      else
        .error (.malformed token.span)
  | [] => .error (.malformed token.span)

/-- What a token is in a body with a given closer.  Single characters other than
the quote are skipped between quotes and stray in a heredoc. -/
def role (closer : Closer) (token : Token) : Role :=
  match token.kind, closer with
  | .bodyText, _ => .part (.literal (Escape.decode token.data) token.span)
  | .variable, _ => .part (.variable (token.data.drop 1) token.span)
  | .heredocEnd, .heredoc => .terminator
  | .char, .quote char => if token.isChar char then .terminator else .skipped
  | _, _ => .stray

/-- The body of a literal: its parts, the token that ended it, and the tokens that
were not taken. -/
structure Body where
  parts : List Expr
  last : Option (Token × Bool)
  rest : List Token

/-- Take tokens up to and with the first one that is no part of the body.  It is
returned with whether it is the terminator. -/
def takeBody (closer : Closer) : List Token → Body
  | [] => ⟨[], none, []⟩
  | token :: rest =>
      match role closer token with
      | .part expr =>
          let body := takeBody closer rest
          { body with parts := expr :: body.parts }
      | .skipped => takeBody closer rest
      | .terminator => ⟨[], some (token, true), rest⟩
      | .stray => ⟨[], some (token, false), rest⟩

/-- The span from an opener to its terminator, positioned at the opener. -/
def cover (opener terminator : Token) : Span :=
  { opener.span with stop := terminator.span.stop }

/-- Compile the literal after an opener.  The second component holds the tokens
that were not taken. -/
def compileBody (closer : Closer) (opener : Token) (tokens : List Token) :
    Except LiteralError Expr × List Token :=
  let body := takeBody closer tokens
  match body.last with
  | none => (.error (.unexpectedEnd closer.literal opener.span), body.rest)
  | some (token, true) => (.ok (.concat body.parts (cover opener token)), body.rest)
  | some (token, false) => (.error (.unexpectedToken token.unexpected), body.rest)

theorem takeBody_rest_length_le (closer : Closer) (tokens : List Token) :
    (takeBody closer tokens).rest.length ≤ tokens.length := by
  induction tokens with
  | nil => simp [takeBody]
  | cons token rest ih =>
      unfold takeBody
      split
      · exact Nat.le_succ_of_le ih
      · exact Nat.le_succ_of_le ih
      · exact Nat.le_succ _
      · exact Nat.le_succ _

theorem compileBody_rest_length_le (closer : Closer) (opener : Token) (tokens : List Token) :
    (compileBody closer opener tokens).2.length ≤ tokens.length := by
  have shorter := takeBody_rest_length_le closer tokens
  simp only [compileBody]
  split <;> exact shorter

end Literal

end PageScript
