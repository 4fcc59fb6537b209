/-!
# Bytes of a page

A page is a list of bytes in no promised encoding.  Every byte that matters to
the scanner is an ASCII byte, so this module names those bytes, sorts bytes into
the classes that the scanner asks about, and searches for a short pattern.
-/

namespace PageScript

/-- The bytes of a page, a token or a literal value, in order.  They need not be
well-formed UTF-8. -/
abbrev Bytes := List UInt8

namespace Byte

/-- Horizontal tab. -/
abbrev tab : UInt8 := 0x09

/-- Line feed, the byte that ends a line. -/
abbrev lineFeed : UInt8 := 0x0A

/-- Carriage return, which may precede a line feed. -/
abbrev carriageReturn : UInt8 := 0x0D

/-- The blank between words. -/
abbrev space : UInt8 := 0x20

/-- The delimiter of a string with escapes and variables. -/
abbrev doubleQuote : UInt8 := 0x22

/-- The one-byte opener of a line comment. -/
abbrev hash : UInt8 := 0x23

/-- The sigil of a variable. -/
abbrev dollar : UInt8 := 0x24

/-- The delimiter of a string without variables. -/
abbrev singleQuote : UInt8 := 0x27

/-- The second byte of a block comment. -/
abbrev star : UInt8 := 0x2A

/-- A plus sign, as in an exponent. -/
abbrev plus : UInt8 := 0x2B

/-- A minus sign, as in an exponent. -/
abbrev minus : UInt8 := 0x2D

/-- The fraction dot of a number. -/
abbrev dot : UInt8 := 0x2E

/-- The first byte of a comment opener. -/
abbrev slash : UInt8 := 0x2F

/-- The digit zero, which opens a radix marker. -/
abbrev zero : UInt8 := 0x30

/-- The less-than sign, which opens tags and heredoc headers. -/
abbrev less : UInt8 := 0x3C

/-- The greater-than sign that ends a close tag. -/
abbrev greater : UInt8 := 0x3E

/-- The question mark of open and close tags. -/
abbrev question : UInt8 := 0x3F

/-- The byte that opens every escape sequence. -/
abbrev backslash : UInt8 := 0x5C

/-- The underscore, a letter of names and a separator of digits. -/
abbrev underscore : UInt8 := 0x5F

/-- The delimiter of a command string. -/
abbrev backtick : UInt8 := 0x60

/-- The opener of a braced code point. -/
abbrev leftBrace : UInt8 := 0x7B

/-- The closer of a braced code point. -/
abbrev rightBrace : UInt8 := 0x7D

/-- The byte of an ASCII character. -/
def ofChar (char : Char) : UInt8 :=
  UInt8.ofNat char.toNat

/-- A decimal digit. -/
def isDigit (byte : UInt8) : Bool :=
  0x30 ≤ byte && byte ≤ 0x39

/-- A binary digit. -/
def isBinaryDigit (byte : UInt8) : Bool :=
  0x30 ≤ byte && byte ≤ 0x31

/-- An octal digit. -/
def isOctalDigit (byte : UInt8) : Bool :=
  0x30 ≤ byte && byte ≤ 0x37

/-- A hexadecimal digit of either case. -/
def isHexDigit (byte : UInt8) : Bool :=
  isDigit byte || (0x41 ≤ byte && byte ≤ 0x46) || (0x61 ≤ byte && byte ≤ 0x66)

/-- An upper-case ASCII letter. -/
def isUpper (byte : UInt8) : Bool :=
  0x41 ≤ byte && byte ≤ 0x5A

/-- A lower-case ASCII letter. -/
def isLower (byte : UInt8) : Bool :=
  0x61 ≤ byte && byte ≤ 0x7A

/-- The same letter in lower case; every other byte is unchanged. -/
def toLower (byte : UInt8) : UInt8 :=
  if isUpper byte then byte + 0x20 else byte

/-- The same letter in upper case; every other byte is unchanged. -/
def toUpper (byte : UInt8) : UInt8 :=
  if isLower byte then byte - 0x20 else byte

/-- A byte that may open a name: an ASCII letter, an underscore or any byte
outside ASCII. -/
def isNameStart (byte : UInt8) : Bool :=
  isUpper byte || isLower byte || byte == underscore || 0x80 ≤ byte

/-- A byte that may continue a name.  Digits join the bytes that may open one. -/
def isNamePart (byte : UInt8) : Bool :=
  isNameStart byte || isDigit byte

/-- A space or a tab, the bytes that may indent. -/
def isBlank (byte : UInt8) : Bool :=
  byte == space || byte == tab

/-- A byte of a whitespace run: a blank or a byte of a line break. -/
def isSpace (byte : UInt8) : Bool :=
  isBlank byte || byte == lineFeed || byte == carriageReturn

end Byte

namespace Bytes

/-- The bytes of a text that holds ASCII characters only. -/
def ascii (text : String) : Bytes :=
  text.toList.map Byte.ofChar

/-- Length of the longest run at the front whose bytes all satisfy `accept`. -/
def runLength (accept : UInt8 → Bool) : Bytes → Nat
  | [] => 0
  | byte :: rest => if accept byte then runLength accept rest + 1 else 0

/-- Whether the first byte exists and satisfies `accept`. -/
def startsWhere (accept : UInt8 → Bool) : Bytes → Bool
  | [] => false
  | byte :: _ => accept byte

/-- Length of the line break at the front: a line feed, which a carriage return may
precede.  Zero if there is none. -/
def lineBreakLength : Bytes → Nat
  | [] => 0
  | first :: rest =>
      if first = Byte.lineFeed then 1
      else if first = Byte.carriageReturn && startsWhere (· == Byte.lineFeed) rest then 2
      else 0

/-- Length of the name at the front.  Zero if no name begins there. -/
def nameLength (bytes : Bytes) : Nat :=
  if startsWhere Byte.isNameStart bytes then runLength Byte.isNamePart bytes else 0

/-- Least offset at which `pattern` occurs. -/
def offsetOf? (pattern : Bytes) : Bytes → Option Nat
  | [] => if pattern.isEmpty then some 0 else none
  | byte :: rest =>
      if pattern.isPrefixOf (byte :: rest) then
        some 0
      else
        (offsetOf? pattern rest).map (· + 1)

/-- A pattern that is found splits the bytes searched. -/
theorem exists_split_of_offsetOf? {pattern bytes : Bytes} {offset : Nat}
    (found : offsetOf? pattern bytes = some offset) :
    ∃ front back, bytes = front ++ (pattern ++ back) ∧ offset = front.length := by
  induction bytes generalizing offset with
  | nil =>
      simp only [offsetOf?, Option.ite_none_right_eq_some, List.isEmpty_iff,
        Option.some.injEq] at found
      exact ⟨[], [], by simp [found.1], found.2.symm⟩
  | cons byte rest ih =>
      rw [offsetOf?] at found
      split at found
      · next here =>
          cases found
          obtain ⟨back, split⟩ := List.isPrefixOf_iff_prefix.mp here
          exact ⟨[], back, split.symm, rfl⟩
      · obtain ⟨later, inRest, rfl⟩ := Option.map_eq_some_iff.mp found
        obtain ⟨front, back, rfl, rfl⟩ := ih inRest
        exact ⟨byte :: front, back, rfl, rfl⟩

/-- A pattern that is found ends among the bytes searched. -/
theorem offsetOf?_add_length_le {pattern bytes : Bytes} {offset : Nat}
    (found : offsetOf? pattern bytes = some offset) :
    offset + pattern.length ≤ bytes.length := by
  obtain ⟨front, back, rfl, rfl⟩ := exists_split_of_offsetOf? found
  simp only [List.length_append]
  omega

/-- Dropping any number of bytes after the first leaves fewer bytes. -/
theorem length_drop_lt (byte : UInt8) (rest : Bytes) (count : Nat) :
    (rest.drop count).length < (byte :: rest).length := by
  rw [List.length_drop]
  exact Nat.lt_succ_of_le (Nat.sub_le _ _)

theorem runLength_le (accept : UInt8 → Bool) (bytes : Bytes) :
    runLength accept bytes ≤ bytes.length := by
  induction bytes with
  | nil => simp [runLength]
  | cons byte rest ih =>
      unfold runLength
      split
      · simp [ih]
      · simp

end Bytes

end PageScript
