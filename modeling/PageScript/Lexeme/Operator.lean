import PageScript.Lexeme

/-!
# Operators

The operators of more than one character.  The table lists longer operators before
shorter ones, so the first that fits is the longest.
-/

namespace PageScript.Lexeme

/-- The operators of more than one character, longer ones first. -/
def operators : List Bytes :=
  [ "<<=", ">>=", "**=", "??=", "...", "<=>", "===", "!==", "?->",
    "++", "--", "->", "=>", "::", "==", "!=", "<>", "<=", ">=", "&&", "||", "??", "+=",
    "-=", "*=", "/=", ".=", "%=", "&=", "|=", "^=", "<<", ">>", "**" ].map Bytes.ascii

/-- The operator at the front, or the single character there. -/
def operator (bytes : Bytes) : Lexeme :=
  match operators.find? (·.isPrefixOf bytes) with
  | some text => ⟨.operator, text.length⟩
  | none => ⟨.char, 1⟩

end PageScript.Lexeme
