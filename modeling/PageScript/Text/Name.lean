/-!
# Characters of names

The classes of characters that names are read by where a cursor steps by whole
characters.  Every character outside ASCII belongs to both, and so does the
replacement of a byte that encodes nothing.
-/

namespace PageScript.Text

/-- A character that may open a name. -/
def isNameStart (char : Char) : Bool :=
  ('A' ≤ char && char ≤ 'Z') || ('a' ≤ char && char ≤ 'z') || char == '_' ||
    0x80 ≤ char.toNat

/-- A decimal digit. -/
def isDigit (char : Char) : Bool :=
  '0' ≤ char && char ≤ '9'

/-- A character that may continue a name. -/
def isNamePart (char : Char) : Bool :=
  isNameStart char || isDigit char

end PageScript.Text
