import PageScript.Token.Kind

/-!
# Lexemes

A lexeme is a piece cut from the front of the bytes that remain: its kind and how
many bytes it takes.  Every boundary between lexemes lies beside an ASCII byte or
at the end of a run of name bytes, so pieces are cut by bytes and no character
outside ASCII is ever split.
-/

namespace PageScript

/-- A piece at the front of the remaining bytes. -/
structure Lexeme where
  kind : Kind
  size : Nat
  deriving DecidableEq

end PageScript
