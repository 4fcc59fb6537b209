import PageScript.Token

/-!
# Token listings

Tokens are listed one to a line, with position, kind and quoted text, or as an
array of JSON records.  The array is laid out with one field to a line and an
indent of two spaces a level.
-/

namespace PageScript.Listing

/-- The form of a token listing. -/
inductive Format where
  | text
  | json
  deriving DecidableEq, Inhabited

/-- The name of a form, as settings and arguments give it. -/
def Format.name : Format → String
  | .text => "text"
  | .json => "json"

/-- The form with a name. -/
def Format.ofName? (name : String) : Option Format :=
  [Format.text, Format.json].find? fun format => format.name == name

/-- One line of a plain listing. -/
def tokenLine (token : Token) : String :=
  token.span.position ++ " " ++ token.summary ++ "\n"

/-- One character of a JSON string.  Only quotes, backslashes and controls are
escaped. -/
def jsonChar (char : Char) : List Char :=
  if char = '"' then ['\\', '"']
  else if char = '\\' then ['\\', '\\']
  else if char = '\x08' then ['\\', 'b']
  else if char = '\t' then ['\\', 't']
  else if char = '\n' then ['\\', 'n']
  else if char = '\x0c' then ['\\', 'f']
  else if char = '\r' then ['\\', 'r']
  else if char.toNat < 0x20 then
    ['\\', 'u', '0', '0'] ++ Hex.byteChars (UInt8.ofNat char.toNat)
  else [char]

/-- A text as a JSON string. -/
def jsonString (text : String) : String :=
  String.ofList ('"' :: text.toList.flatMap jsonChar ++ ['"'])

/-- The fields of the JSON record of a token, with the texts of their values. -/
def recordFields (token : Token) : List (String × String) :=
  [("kind", jsonString token.kind.listedName),
    ("line", toString token.span.line.toNat),
    ("column", toString token.span.column.toNat),
    ("start", toString token.span.start),
    ("end", toString token.span.stop),
    ("text", jsonString token.text)]

/-- The JSON record of a token, one level deep. -/
def jsonRecord (token : Token) : String :=
  let rows := (recordFields token).map fun (name, value) =>
    "    " ++ jsonString name ++ ": " ++ value
  "  \x7b\n" ++ ",\n".intercalate rows ++ "\n  \x7d"

/-- A JSON array of token records. -/
def jsonListing (tokens : List Token) : String :=
  match tokens with
  | [] => "[]\n"
  | _ :: _ => "[\n" ++ ",\n".intercalate (tokens.map jsonRecord) ++ "\n]\n"

/-- A listing of tokens. -/
def tokens (format : Format) (tokens : List Token) : String :=
  match format with
  | .text => String.join (tokens.map tokenLine)
  | .json => jsonListing tokens

end PageScript.Listing
