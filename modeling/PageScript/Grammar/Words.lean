import PageScript.Grammar

/-!
# A grammar of words

A small grammar that shows how another language drives the same scanner.  Spaces
are dropped, a run of ASCII letters is a name, and any other character stands
alone.  An exclamation mark is more than the grammar can take.
-/

namespace PageScript.Words

/-- A letter of a word. -/
def isLetter (char : Char) : Bool :=
  ('A' ≤ char && char ≤ 'Z') || ('a' ≤ char && char ≤ 'z')

/-- Publish the pending text and call the state again. -/
def publish (kind : Kind) (scanner : Scanner) : Outcome Unit × Scanner :=
  match scanner.emit kind with
  | .error fault => (.fail fault, scanner)
  | .ok (_, after) => (.next (), after)

/-- Publish one character that belongs to no word, or stop at the end. -/
def other (scanner : Scanner) : Outcome Unit × Scanner :=
  match scanner.cursor.next with
  | (none, cursor) => (.stop, scanner.withCursor cursor)
  | (some char, cursor) =>
      if char = '!' then
        (.fail .raised, scanner.withCursor cursor)
      else
        publish .invalid (scanner.withCursor cursor)

/-- The only state: drop spaces, then publish a word or one other character. -/
def call (_state : Unit) (scanner : Scanner) : Outcome Unit × Scanner :=
  match (scanner.cursor.acceptWhile (· == ' ')).ignore with
  | .error fault => (.fail fault, scanner)
  | .ok cursor =>
      let word := scanner.withCursor (cursor.acceptWhile isLetter)
      match word.cursor.pending with
      | .error fault => (.fail fault, word)
      | .ok [] => other word
      | .ok (_ :: _) => publish .name word

/-- The grammar of words. -/
def grammar : Grammar where
  State := Unit
  call := call

end PageScript.Words
