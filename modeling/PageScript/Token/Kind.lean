import PageScript.Token.Keyword

/-!
# Kinds of tokens

The classes into which a page is cut.  Each kind has the name that token listings
of this language use, and a title that inspected tokens show.
-/

namespace PageScript

/-- The class of a token. -/
inductive Kind where
  /-- Text outside scripts. -/
  | inlineHtml
  /-- The tag that opens a script, with one whitespace character. -/
  | openTag
  /-- The tag that opens a script whose value is printed. -/
  | echoTag
  /-- The tag that closes a script, with the line break after it. -/
  | closeTag
  /-- A run of whitespace. -/
  | whitespace
  /-- A comment of any form but the documenting one. -/
  | comment
  /-- A block comment that documents what follows. -/
  | docComment
  /-- A variable with its sigil. -/
  | variable
  /-- A name that is not reserved. -/
  | name
  /-- A reserved word. -/
  | keyword (word : Keyword)
  /-- A whole number. -/
  | integer
  /-- A number with a fraction dot or an exponent. -/
  | decimal
  /-- A complete single-quoted string, quotes included. -/
  | singleQuoted
  /-- A run of text inside a string body. -/
  | bodyText
  /-- The line that opens a heredoc, with its line break. -/
  | heredocStart
  /-- The closing label of a heredoc, with the line break and blanks before it. -/
  | heredocEnd
  /-- An operator of several characters. -/
  | operator
  /-- Any other single character, a string delimiter among them. -/
  | char
  /-- Text that makes no token, such as an unterminated string. -/
  | invalid
  deriving DecidableEq

namespace Kind

/-- The name of a kind in listings. -/
def listedName : Kind → String
  | .inlineHtml => "T_INLINE_HTML"
  | .openTag => "T_OPEN_TAG"
  | .echoTag => "T_OPEN_TAG_WITH_ECHO"
  | .closeTag => "T_CLOSE_TAG"
  | .whitespace => "T_WHITESPACE"
  | .comment => "T_COMMENT"
  | .docComment => "T_DOC_COMMENT"
  | .variable => "T_VARIABLE"
  | .name => "T_STRING"
  | .keyword word => word.tokenName
  | .integer => "T_LNUMBER"
  | .decimal => "T_DNUMBER"
  | .singleQuoted => "T_CONSTANT_ENCAPSED_STRING"
  | .bodyText => "T_ENCAPSED_AND_WHITESPACE"
  | .heredocStart => "T_START_HEREDOC"
  | .heredocEnd => "T_END_HEREDOC"
  | .operator => "T_OPERATOR"
  | .char => "T_CHAR"
  | .invalid => "T_BAD_CHARACTER"

/-- The title of a kind in inspected tokens. -/
def title : Kind → String
  | .inlineHtml => "InlineHtml"
  | .openTag => "OpenTag"
  | .echoTag => "OpenTagWithEcho"
  | .closeTag => "CloseTag"
  | .whitespace => "Whitespace"
  | .comment => "Comment"
  | .docComment => "DocComment"
  | .variable => "Variable"
  | .name => "Label"
  | .keyword word => "Keyword(" ++ word.title ++ ")"
  | .integer => "LNumber"
  | .decimal => "DNumber"
  | .singleQuoted => "ConstantEncapsedString"
  | .bodyText => "EncapsedAndWhitespace"
  | .heredocStart => "StartHeredoc"
  | .heredocEnd => "EndHeredoc"
  | .operator => "Operator"
  | .char => "SingleChar"
  | .invalid => "Invalid"

/-- Whether a parser passes over tokens of this kind. -/
def isTrivia : Kind → Bool
  | .whitespace | .comment | .docComment => true
  | _ => false

/-- The kinds that are no keywords. -/
def plain : List Kind :=
  [.inlineHtml, .openTag, .echoTag, .closeTag, .whitespace, .comment, .docComment,
    .variable, .name, .integer, .decimal, .singleQuoted, .bodyText, .heredocStart,
    .heredocEnd, .operator, .char, .invalid]

/-- Every kind. -/
def all : List Kind :=
  plain ++ Keyword.all.map .keyword

/-- The kind with a given name in listings. -/
def ofListedName? (name : String) : Option Kind :=
  all.find? fun kind => kind.listedName == name

/-- The kind of a name: its keyword if it is reserved. -/
def ofName (name : Bytes) : Kind :=
  match Keyword.ofName? name with
  | some word => .keyword word
  | none => .name

end Kind

end PageScript
