/-!
# Blank characters

The characters that separate words and lines in the scripts of the world.
-/

namespace PageScript.Text

/-- Whether a character is a space, a tab, or a break between lines or pages. -/
def isBlank (char : Char) : Bool :=
  let number := char.toNat
  (0x09 ≤ number && number ≤ 0x0D) || number == 0x20 || number == 0x85 || number == 0xA0 ||
    number == 0x1680 || (0x2000 ≤ number && number ≤ 0x200A) || number == 0x2028 ||
    number == 0x2029 || number == 0x202F || number == 0x205F || number == 0x3000

/-- The characters without the blanks at either end. -/
def withoutBlanks (chars : List Char) : List Char :=
  ((chars.dropWhile isBlank).reverse.dropWhile isBlank).reverse

end PageScript.Text
