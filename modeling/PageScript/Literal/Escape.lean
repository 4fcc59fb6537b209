import PageScript.Hex
import PageScript.Utf8

/-!
# Escape sequences

The value of the bytes between the delimiters of a string.  Where variables are
allowed, a backslash opens one of these escapes:

* a letter for a control character, a double quote or a backslash;
* one octal digit, which is the value of one byte;
* `x` and exactly two hexadecimal digits, which spell one byte;
* `u` and a braced run of hexadecimal digits, which spells a character.

A backslash that opens none of them is kept with the byte after it.  Between single
quotes only a backslash and a single quote can be escaped.
-/

namespace PageScript.Escape

/-- The byte that a letter after a backslash stands for. -/
def letter? (letter : UInt8) : Option UInt8 :=
  if letter = Byte.ofChar 't' then some Byte.tab
  else if letter = Byte.ofChar 'n' then some Byte.lineFeed
  else if letter = Byte.ofChar 'v' then some 0x0B
  else if letter = Byte.ofChar 'f' then some 0x0C
  else if letter = Byte.ofChar 'r' then some Byte.carriageReturn
  else if letter = Byte.doubleQuote || letter = Byte.backslash then some letter
  else if Byte.isOctalDigit letter then some (letter - Byte.zero)
  else none

/-- The character with a number.  Only the low 32 bits of the number count, and a
number that no character has stands for the replacement character. -/
def scalar (value : Nat) : Char :=
  let low := value % UInt32.size
  if low < 0xD800 || (0xDFFF < low && low < 0x110000) then Char.ofNat low
  else Utf8.replacement

/-- A braced character number at the front, with its length.  The braces end at the
first closing brace, wherever it stands. -/
def braced? : Bytes → Option (Char × Nat)
  | [] => none
  | first :: rest =>
      if first = Byte.leftBrace then
        match Bytes.offsetOf? [Byte.rightBrace] rest with
        | none => none
        | some length =>
            (Hex.word? (rest.take length)).map fun value => (scalar value, length + 2)
      else
        none

/-- The value of the escape whose backslash has just been passed, with the number
of bytes it takes after the backslash. -/
def escape? : Bytes → Option (Bytes × Nat)
  | [] => none
  | letter :: rest =>
      match letter? letter with
      | some byte => some ([byte], 1)
      | none =>
          if letter = Byte.ofChar 'x' then
            (Hex.byte? (rest.take 2)).map fun byte => ([byte], 3)
          else if letter = Byte.ofChar 'u' then
            (braced? rest).map fun (char, size) => (Utf8.encode char, size + 1)
          else
            none

/-- The value of a run of text in a string with variables. -/
def decode : Bytes → Bytes
  | [] => []
  | byte :: rest =>
      if byte = Byte.backslash then
        match escape? rest with
        | some (value, size) => value ++ decode (rest.drop size)
        | none =>
            match rest with
            | [] => [Byte.backslash]
            | kept :: after => Byte.backslash :: kept :: decode after
      else
        byte :: decode rest
  termination_by bytes => bytes.length
  decreasing_by
    · exact Bytes.length_drop_lt _ _ _
    · exact Nat.lt_succ_of_lt (Nat.lt_succ_self _)
    · exact Nat.lt_succ_self _

/-- The value of the text between single quotes. -/
def decodeSingle : Bytes → Bytes
  | [] => []
  | byte :: rest =>
      if byte = Byte.backslash then
        match rest with
        | [] => [Byte.backslash]
        | following :: after =>
            if following = Byte.backslash || following = Byte.singleQuote then
              following :: decodeSingle after
            else
              Byte.backslash :: following :: decodeSingle after
      else
        byte :: decodeSingle rest

end PageScript.Escape
