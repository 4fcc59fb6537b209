import PageScript.Span
import PageScript.Text.Quoted

/-!
# String expressions

The value of a string literal is an expression: a constant, a variable, or parts
to be concatenated in order.  An expression without variables has a constant value.
-/

namespace PageScript

/-- The value of a string literal, or of a part of one. -/
inductive Expr where
  /-- Bytes that are known. -/
  | literal (value : Bytes) (span : Span)
  /-- A variable, named without its sigil. -/
  | variable (name : Bytes) (span : Span)
  /-- Parts to be concatenated in order. -/
  | concat (parts : List Expr) (span : Span)

namespace Expr

/-- Where an expression stands. -/
def span : Expr → Span
  | .literal _ span => span
  | .variable _ span => span
  | .concat _ span => span

mutual

/-- The value of an expression in which no variable occurs. -/
def constant? : Expr → Option Bytes
  | .literal value _ => some value
  | .variable _ _ => none
  | .concat parts _ => constantAll? parts

/-- The concatenated values of parts in which no variable occurs. -/
def constantAll? : List Expr → Option Bytes
  | [] => some []
  | part :: rest =>
      match constant? part with
      | none => none
      | some value => (constantAll? rest).map (value ++ ·)

end

mutual

/-- An expression on one line. -/
def render : Expr → String
  | .literal value _ => value.quoted
  | .variable name _ => "$" ++ Utf8.lossy name
  | .concat parts _ => "concat(" ++ ", ".intercalate (renderAll parts) ++ ")"

/-- Each part on one line. -/
def renderAll : List Expr → List String
  | [] => []
  | part :: rest => render part :: renderAll rest

end

end Expr

end PageScript
