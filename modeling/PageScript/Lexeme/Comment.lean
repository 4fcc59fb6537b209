import PageScript.Lexeme

/-!
# Comments

A line comment leaves the line feed or the close tag that ends it.  A block
comment takes its closer with it; the star of the opener is no part of the closer.
-/

namespace PageScript.Lexeme

/-- Length of a line comment: up to the first line feed or close tag. -/
def lineCommentLength : Bytes → Nat
  | [] => 0
  | byte :: rest =>
      if byte = Byte.lineFeed then 0
      else if byte = Byte.question && Bytes.startsWhere (· == Byte.greater) rest then 0
      else lineCommentLength rest + 1

/-- The closer of a block comment. -/
def blockCloser : Bytes :=
  [Byte.star, Byte.slash]

/-- Length of a block comment with its closer, if the closer is there. -/
def blockCommentLength? (bytes : Bytes) : Option Nat :=
  (Bytes.offsetOf? blockCloser (bytes.drop 2)).map (· + 4)

/-- The kind of a block comment.  A second star and whitespace mark one that
documents what follows. -/
def blockCommentKind (bytes : Bytes) : Kind :=
  match bytes.drop 2 with
  | second :: following :: _ =>
      if second = Byte.star && Byte.isSpace following then .docComment else .comment
  | _ => .comment

end PageScript.Lexeme
