import PageScript.Utf8

/-!
# Byte strings as values

The value of a literal is a byte string.  It grows at its end, is ordered byte by
byte, and equals a text when it holds the encoding of that text.
-/

namespace PageScript.Bytes

/-- Append one byte. -/
def push (bytes : Bytes) (byte : UInt8) : Bytes :=
  bytes ++ [byte]

/-- Append the encoding of a character. -/
def pushChar (bytes : Bytes) (char : Char) : Bytes :=
  bytes ++ Utf8.encode char

/-- Compare byte by byte.  A proper beginning comes before what it begins. -/
def order : Bytes → Bytes → Ordering
  | [], [] => .eq
  | [], _ :: _ => .lt
  | _ :: _, [] => .gt
  | left :: leftRest, right :: rightRest =>
      if left < right then .lt
      else if right < left then .gt
      else order leftRest rightRest

/-- Whether the bytes are the encoding of a text. -/
def equalsText (bytes : Bytes) (text : String) : Bool :=
  bytes == Utf8.ofString text

end PageScript.Bytes
