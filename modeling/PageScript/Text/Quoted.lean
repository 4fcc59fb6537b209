import PageScript.Hex
import PageScript.Text.Printable
import PageScript.Utf8

/-!
# Quoted text

Two written forms of data inside double quotes.  A text is written character by
character: quotes and backslashes take a backslash, four controls have a letter,
and any other character that does not print is spelled by its number.  A byte
string is written byte by byte and uses ASCII only, so that nothing about its
encoding is assumed.

A braced number in the first form and a pair of hexadecimal digits in the second
are escapes that `Literal.Escape` reads back.
-/

namespace PageScript.Text

/-- One character of a quoted text. -/
def writeChar (char : Char) : List Char :=
  if char = '"' then ['\\', '"']
  else if char = '\\' then ['\\', '\\']
  else if char = '\t' then ['\\', 't']
  else if char = '\n' then ['\\', 'n']
  else if char = '\r' then ['\\', 'r']
  else if char = '\x00' then ['\\', '0']
  else if isPrintable char then [char]
  else ['\\', 'u', '\x7b'] ++ Hex.natChars char.toNat ++ ['\x7d']

/-- A text between double quotes, on one line and with every character visible. -/
def quoted (text : String) : String :=
  String.ofList ('"' :: text.toList.flatMap writeChar ++ ['"'])

end PageScript.Text

namespace PageScript.Bytes

/-- One byte of a quoted byte string.  A byte that is no visible ASCII character
is spelled by two hexadecimal digits. -/
def writeByte (byte : UInt8) : Bytes :=
  if byte = Byte.doubleQuote then [Byte.backslash, Byte.doubleQuote]
  else if byte = Byte.backslash then [Byte.backslash, Byte.backslash]
  else if byte = Byte.lineFeed then [Byte.backslash, Byte.ofChar 'n']
  else if byte = Byte.carriageReturn then [Byte.backslash, Byte.ofChar 'r']
  else if byte = Byte.tab then [Byte.backslash, Byte.ofChar 't']
  else if 0x20 ≤ byte && byte ≤ 0x7E then [byte]
  else [Byte.backslash, Byte.ofChar 'x'] ++ (Hex.byteChars byte).map Byte.ofChar

/-- The body of a quoted byte string, without its quotes. -/
def writeBody (bytes : Bytes) : Bytes :=
  bytes.flatMap writeByte

/-- A byte string between double quotes, in ASCII. -/
def written (bytes : Bytes) : Bytes :=
  Byte.doubleQuote :: writeBody bytes ++ [Byte.doubleQuote]

/-- The text of a quoted byte string. -/
def quoted (bytes : Bytes) : String :=
  Utf8.lossy (written bytes)

end PageScript.Bytes
