import PageScript.Settings.Toml.Text

/-!
# Whole settings texts

A settings text is read line by line: a comment, a header that opens a table, or a
key with its value.  Values may run over several lines.  Reading fails at the first
line that is malformed or that names something twice.
-/

namespace PageScript.Toml

/-- The rest after a comment at the front, which must hold plain characters. -/
def skipComment (chars : Chars) : Chars :=
  match chars with
  | '#' :: rest => rest.dropWhile isPlain
  | _ => chars

/-- The rest after the end of a line: blanks, a comment, and a line break or the end
of the text. -/
def endOfLine? (chars : Chars) : Option Chars :=
  match skipComment (skipBlanks chars) with
  | [] => some []
  | other => lineBreak? other

/-- The rest after blanks, comments and line breaks, which may separate the elements
of an array. -/
def skipLines : Nat → Chars → Chars
  | 0, chars => chars
  | fuel + 1, chars =>
      let bare := skipBlanks chars
      match lineBreak? (skipComment bare) with
      | some rest => skipLines fuel rest
      | none => bare

/-- A character of a word. -/
def isWordChar (char : Char) : Bool :=
  isBare char || char == '+' || char == '.' || char == ':'

/-- Length of the word at the front.  A blank may join a date to a time of day. -/
def wordLength (chars : Chars) : Nat :=
  let first := (chars.takeWhile isWordChar).length
  let continued :=
    match date? (chars.take first), chars.drop first with
    | some [], ' ' :: digit :: rest =>
        if isDigit digit then 1 + ((digit :: rest).takeWhile isWordChar).length else 0
    | _, _ => 0
  first + continued

mutual

/-- The value at the front, and the rest. -/
def value? : Nat → Chars → Option (Value × Chars)
  | 0, _ => none
  | fuel + 1, chars =>
      match chars with
      | '[' :: rest =>
          (elements? fuel (skipLines rest.length rest)).map fun (elements, rest) =>
            (.array elements, rest)
      | '\x7b' :: rest =>
          match skipBlanks rest with
          | '\x7d' :: rest => some (.table .inline [], rest)
          | first =>
              (pairs? fuel [] first).map fun (entries, rest) =>
                (.table .inline entries, rest)
      | '"' :: _ => (text? chars).map fun (text, rest) => (.text text, rest)
      | '\'' :: _ => (text? chars).map fun (text, rest) => (.text text, rest)
      | _ =>
          let length := wordLength chars
          (word? (chars.take length)).map fun value => (value, chars.drop length)

/-- The elements of an array up to its closing bracket, and the rest. -/
def elements? : Nat → Chars → Option (List Value × Chars)
  | 0, _ => none
  | fuel + 1, chars =>
      match chars with
      | ']' :: rest => some ([], rest)
      | _ =>
          match value? fuel chars with
          | none => none
          | some (value, rest) =>
              match skipLines rest.length rest with
              | ']' :: rest => some ([value], rest)
              | ',' :: rest =>
                  (elements? fuel (skipLines rest.length rest)).map fun (values, rest) =>
                    (value :: values, rest)
              | _ => none

/-- The entries of a table in braces up to its closing brace, and the rest. -/
def pairs? : Nat → Entries → Chars → Option (Entries × Chars)
  | 0, _, _ => none
  | fuel + 1, entries, chars =>
      match key? chars with
      | some (names, '=' :: rest) =>
          match value? fuel (skipBlanks rest) with
          | none => none
          | some (value, rest) =>
              match Entries.insert? entries names value, skipBlanks rest with
              | some entries, '\x7d' :: rest => some (entries, rest)
              | some entries, ',' :: rest => pairs? fuel entries (skipBlanks rest)
              | _, _ => none
      | _ => none

end

/-- A settings text that is being read. -/
structure Draft where
  /-- The tables that are complete. -/
  root : Entries := []
  /-- The header of the table being read; none for the table of the whole text. -/
  header : Option (List String × String) := none
  /-- Whether the header is a repeated one. -/
  repeated : Bool := false
  /-- The entries of the table being read. -/
  entries : Entries := []

namespace Draft

/-- The whole text with the table being read put in its place. -/
def close? (draft : Draft) : Option Entries :=
  match draft.header with
  | none => some draft.entries
  | some (parents, name) =>
      let work :=
        if draft.repeated then Entries.closeTables? name draft.entries
        else Entries.closeTable? name draft.entries
      (Entries.withTable? draft.root parents work).map (·.2)

/-- Go on with the table of a header. -/
def open? (draft : Draft) (names : List String) (repeated : Bool) : Option Draft := do
  let root ← draft.close?
  let name ← names.getLast?
  let parents := names.dropLast
  if repeated then
    let (_, root) ← Entries.withTable? root parents (Entries.openTables? name)
    return { root, header := some (parents, name), repeated, entries := [] }
  else
    let (entries, root) ← Entries.withTable? root parents (Entries.openTable? name)
    return { root, header := some (parents, name), repeated, entries }

end Draft

/-- Read one line with a header or a key. -/
def line? (draft : Draft) (chars : Chars) : Option (Draft × Chars) :=
  match chars with
  | '[' :: '[' :: rest => do
      let (names, rest) ← key? (skipBlanks rest)
      let rest ← after? ']' rest
      let rest ← after? ']' rest
      let draft ← draft.open? names true
      return (draft, ← endOfLine? rest)
  | '[' :: rest => do
      let (names, rest) ← key? (skipBlanks rest)
      let rest ← after? ']' rest
      let draft ← draft.open? names false
      return (draft, ← endOfLine? rest)
  | _ => do
      let (names, rest) ← key? chars
      let rest ← after? '=' rest
      let (value, rest) ← value? (rest.length + 1) (skipBlanks rest)
      let entries ← Entries.insert? draft.entries names value
      return ({ draft with entries }, ← endOfLine? rest)

/-- Read lines to the end of the text. -/
def lines? : Nat → Draft → Chars → Option Entries
  | 0, _, _ => none
  | fuel + 1, draft, chars =>
      match skipBlanks chars with
      | [] => draft.close?
      | bare =>
          match lineBreak? (skipComment bare) with
          | some rest => lines? fuel draft rest
          | none =>
              if (skipComment bare).isEmpty then draft.close?
              else
                match line? draft bare with
                | some (draft, rest) => lines? fuel draft rest
                | none => none

/-- The table that a settings text describes, if the text is well formed. -/
def document? (text : String) : Option Entries :=
  let chars :=
    match text.toList with
    | '\uFEFF' :: rest => rest
    | chars => chars
  lines? (chars.length + 1) {} chars

end PageScript.Toml
