import PageScript.Settings.Toml.Scalar

/-!
# Texts and keys of a settings text

A text stands between double quotes, with escapes, or between single quotes, as it
is.  Three quotes open a text of several lines; a line break right after them is
dropped.  A key is a bare word or a text of one line, and dots join keys.
-/

namespace PageScript.Toml

/-- A character that may stand in comments and texts as it is. -/
def isPlain (char : Char) : Bool :=
  char == '\t' || (0x20 ≤ char.toNat && char.toNat != 0x7F)

/-- A space or a tab. -/
def isBlank (char : Char) : Bool :=
  char == ' ' || char == '\t'

/-- The rest after blanks. -/
def skipBlanks (chars : Chars) : Chars :=
  chars.dropWhile isBlank

/-- The rest after a line break at the front. -/
def lineBreak? : Chars → Option Chars
  | '\n' :: rest => some rest
  | '\r' :: '\n' :: rest => some rest
  | _ => none

/-- The rest after a line break at the front, or everything if there is none. -/
def skipLineBreak (chars : Chars) : Chars :=
  (lineBreak? chars).getD chars

/-- The character with a number, if it is one. -/
def scalar? (value : Nat) : Option Char :=
  if value < 0xD800 || (0xDFFF < value && value < 0x110000) then some (Char.ofNat value)
  else none

/-- The character spelled by exactly `count` hexadecimal digits, and the rest. -/
def spelled? (count : Nat) (chars : Chars) : Option (Char × Chars) :=
  let digits := chars.take count
  if digits.length = count && digits.all isHexDigit then
    (scalar? (numberIn 16 digits)).map fun char => (char, chars.drop count)
  else none

/-- The character of an escape whose backslash was passed, and the rest. -/
def escape? : Chars → Option (Char × Chars)
  | 'b' :: rest => some ('\x08', rest)
  | 't' :: rest => some ('\t', rest)
  | 'n' :: rest => some ('\n', rest)
  | 'f' :: rest => some ('\x0c', rest)
  | 'r' :: rest => some ('\r', rest)
  | '"' :: rest => some ('"', rest)
  | '\\' :: rest => some ('\\', rest)
  | 'u' :: rest => spelled? 4 rest
  | 'U' :: rest => spelled? 8 rest
  | _ => none

/-- A text with escapes up to its closing quote on the same line, and the rest.
`taken` holds what was read, latest first. -/
def quotedLine? (fuel : Nat) (taken : Chars) (chars : Chars) : Option (Chars × Chars) :=
  match fuel, chars with
  | 0, _ => none
  | _, [] => none
  | fuel + 1, char :: rest =>
      if char = '"' then some (taken.reverse, rest)
      else if char = '\\' then
        match escape? rest with
        | some (escaped, rest) => quotedLine? fuel (escaped :: taken) rest
        | none => none
      else if isPlain char then quotedLine? fuel (char :: taken) rest
      else none

/-- A text as it is up to its closing quote on the same line, and the rest. -/
def literalLine? (chars : Chars) : Option (Chars × Chars) :=
  let inside (char : Char) : Bool := isPlain char && char != '\''
  (after? '\'' (chars.dropWhile inside)).map fun rest => (chars.takeWhile inside, rest)

/-- Number of characters `quote` at the front. -/
def quoteRun (quote : Char) (chars : Chars) : Nat :=
  (chars.takeWhile (· == quote)).length

/-- The rest after blanks and line breaks. -/
def skipBlankLines (chars : Chars) : Chars :=
  chars.dropWhile fun char => isBlank char || char == '\n' || char == '\r'

/-- A text of several lines up to its three closing quotes, and the rest.  As many
as two more quotes before the closing ones belong to the text. -/
def block? (quote : Char) (escapes : Bool) (fuel : Nat) (taken : Chars) (chars : Chars) :
    Option (Chars × Chars) :=
  match fuel, chars with
  | 0, _ => none
  | _, [] => none
  | fuel + 1, char :: rest =>
      if char = quote then
        let run := min 5 (quoteRun quote (char :: rest))
        if 3 ≤ run then
          some ((List.replicate (run - 3) quote ++ taken).reverse, (char :: rest).drop run)
        else block? quote escapes fuel (char :: taken) rest
      else if char = '\\' && escapes then
        match lineBreak? (skipBlanks rest) with
        | some following => block? quote escapes fuel taken (skipBlankLines following)
        | none =>
            match escape? rest with
            | some (escaped, rest) => block? quote escapes fuel (escaped :: taken) rest
            | none => none
      else
        match lineBreak? (char :: rest) with
        | some following => block? quote escapes fuel ('\n' :: taken) following
        | none =>
            if isPlain char then block? quote escapes fuel (char :: taken) rest else none

/-- The text at the front, and the rest. -/
def text? (chars : Chars) : Option (String × Chars) :=
  let found :=
    match chars with
    | '"' :: '"' :: '"' :: rest =>
        block? '"' true (rest.length + 1) [] (skipLineBreak rest)
    | '\'' :: '\'' :: '\'' :: rest =>
        block? '\'' false (rest.length + 1) [] (skipLineBreak rest)
    | '"' :: rest => quotedLine? (rest.length + 1) [] rest
    | '\'' :: rest => literalLine? rest
    | _ => none
  found.map fun (content, rest) => (String.ofList content, rest)

/-- A character of a bare key. -/
def isBare (char : Char) : Bool :=
  isDigit char || ('a' ≤ char && char ≤ 'z') || ('A' ≤ char && char ≤ 'Z') ||
    char == '_' || char == '-'

/-- One part of a key at the front, and the rest. -/
def simpleKey? (chars : Chars) : Option (String × Chars) :=
  let found :=
    match chars with
    | '"' :: rest => quotedLine? (rest.length + 1) [] rest
    | '\'' :: rest => literalLine? rest
    | _ =>
        let name := chars.takeWhile isBare
        if name.isEmpty then none else some (name, chars.drop name.length)
  found.map fun (name, rest) => (String.ofList name, rest)

/-- The parts of a dotted key at the front, and the rest after blanks. -/
def keyParts? : Nat → Chars → Option (List String × Chars)
  | 0, _ => none
  | fuel + 1, chars =>
      match simpleKey? chars with
      | none => none
      | some (name, rest) =>
          match skipBlanks rest with
          | '.' :: following =>
              (keyParts? fuel (skipBlanks following)).map fun (names, rest) =>
                (name :: names, rest)
          | other => some ([name], other)

/-- The dotted key at the front, and the rest after blanks. -/
def key? (chars : Chars) : Option (List String × Chars) :=
  keyParts? (chars.length + 1) chars

end PageScript.Toml
