import PageScript.Lexeme.Heredoc
import PageScript.Scanner

/-!
# Delimited strings

In a single-quoted string a backslash takes the next byte with it, so an escaped
quote does not close the string.  The body of a string with variables is cut into
runs of text and variables up to its own terminator.  There too a backslash takes
the next byte with it, except that a heredoc never loses a line break that way: a
closing line is recognised after every line break.

The bytes after the first of a longer character are never special, so taking one
byte after a backslash cuts at the same places as taking the whole character.
-/

namespace PageScript.Lexeme

/-- Number of bytes up to and with the closing single quote. -/
def singleQuoteLength? : Bytes → Option Nat
  | [] => none
  | byte :: rest =>
      if byte = Byte.singleQuote then
        some 1
      else if byte = Byte.backslash then
        match rest with
        | [] => none
        | _ :: after => (singleQuoteLength? after).map (· + 2)
      else
        (singleQuoteLength? rest).map (· + 1)

/-- Whether a variable begins here: the sigil and a name. -/
def startsVariable : Bytes → Bool
  | [] => false
  | byte :: rest => byte == Byte.dollar && Bytes.startsWhere Byte.isNameStart rest

/-- Length of the variable at the front. -/
def variableLength (bytes : Bytes) : Nat :=
  1 + Bytes.nameLength (bytes.drop 1)

/-- The terminator of a body at the front. -/
def terminator? (enclosure : Enclosure) (bytes : Bytes) : Option Lexeme :=
  match enclosure with
  | .doubleQuote =>
      if Bytes.startsWhere (· == Byte.doubleQuote) bytes then some ⟨.char, 1⟩ else none
  | .backtick =>
      if Bytes.startsWhere (· == Byte.backtick) bytes then some ⟨.char, 1⟩ else none
  | .heredoc label =>
      (Heredoc.closerLength? label bytes).map fun size => ⟨.heredocEnd, size⟩

/-- Whether a backslash in a body leaves the byte after it alone. -/
def keepsLineBreak (enclosure : Enclosure) (following : UInt8) : Bool :=
  match enclosure with
  | .heredoc _ => following == Byte.lineFeed || following == Byte.carriageReturn
  | _ => false

/-- Length of the run of text at the front of a body: up to a variable, the
terminator or the end of the page. -/
def textLength (enclosure : Enclosure) : Bytes → Nat
  | [] => 0
  | byte :: rest =>
      if byte = Byte.backslash then
        match rest with
        | [] => 1
        | following :: after =>
            if keepsLineBreak enclosure following then
              textLength enclosure (following :: after) + 1
            else
              textLength enclosure after + 2
      else if startsVariable (byte :: rest) then 0
      else if (terminator? enclosure (byte :: rest)).isSome then 0
      else textLength enclosure rest + 1

/-- A run of text, if it is not empty. -/
def bodyText (size : Nat) : List Lexeme :=
  if size = 0 then [] else [⟨.bodyText, size⟩]

/-- The lexemes of a body from here on, and whether its terminator is the last of
them. -/
def body (enclosure : Enclosure) (bytes : Bytes) : List Lexeme × Bool :=
  let size := textLength enclosure bytes
  match _split : bytes.drop size with
  | [] => (bodyText size, false)
  | byte :: rest =>
      match terminator? enclosure (byte :: rest) with
      | some closer => (bodyText size ++ [closer], true)
      | none =>
          let length := variableLength (byte :: rest)
          let (lexemes, closed) := body enclosure (rest.drop (length - 1))
          (bodyText size ++ ⟨.variable, length⟩ :: lexemes, closed)
  termination_by bytes.length
  decreasing_by
    have shorter := congrArg List.length _split
    simp only [List.length_drop, List.length_cons] at shorter
    simp only [List.length_drop]
    omega

end PageScript.Lexeme
