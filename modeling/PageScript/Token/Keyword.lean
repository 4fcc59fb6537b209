import PageScript.Bytes

/-!
# Reserved words

A keyword is an entry of the table of reserved words.  Names are compared with the
table without regard to the case of ASCII letters, so a name is a keyword in every
spelling of its letters or in none.
-/

namespace PageScript

namespace Keyword

/-- The reserved words in lower case. -/
def reserved : List Bytes :=
  [ "abstract", "array", "as", "break", "case", "catch", "class", "clone", "const",
    "continue", "declare", "default", "do", "echo", "else", "elseif", "empty", "extends",
    "final", "finally", "fn", "for", "foreach", "function", "global", "if", "implements",
    "include", "include_once", "instanceof", "interface", "isset", "list", "match",
    "namespace", "new", "print", "private", "protected", "public", "require",
    "require_once", "return", "static", "switch", "throw", "trait", "try", "unset", "use",
    "var", "while", "yield" ].map Bytes.ascii

end Keyword

/-- A reserved word, held in lower case. -/
structure Keyword where
  spelling : Bytes
  isReserved : spelling ∈ Keyword.reserved
  deriving DecidableEq

namespace Keyword

/-- The keyword that a name spells in some case, if there is one. -/
def ofName? (name : Bytes) : Option Keyword :=
  if isReserved : name.map Byte.toLower ∈ reserved then
    some ⟨name.map Byte.toLower, isReserved⟩
  else
    none

/-- Every keyword, in the order of the table. -/
def all : List Keyword :=
  reserved.filterMap ofName?

/-- A text of the bytes of a keyword, which are all ASCII. -/
def textOf (bytes : Bytes) : String :=
  String.ofList (bytes.map fun byte => Char.ofNat byte.toNat)

/-- The reserved word as text. -/
def text (keyword : Keyword) : String :=
  textOf keyword.spelling

/-- The name of the token kind of a keyword: its letters in upper case, marked. -/
def tokenName (keyword : Keyword) : String :=
  "T_" ++ textOf (keyword.spelling.map Byte.toUpper)

/-- Each word of a spelling with a capital, and no underscore between. -/
def capitalize (raised : Bool) : Bytes → Bytes
  | [] => []
  | byte :: rest =>
      if byte = Byte.underscore then capitalize true rest
      else (if raised then Byte.toUpper byte else byte) :: capitalize false rest

/-- The title of a keyword, as inspected tokens show it. -/
def title (keyword : Keyword) : String :=
  textOf (capitalize true keyword.spelling)

/-- A name is a keyword exactly when its lower-case form is reserved. -/
theorem ofName?_eq_some_iff {name : Bytes} {keyword : Keyword} :
    ofName? name = some keyword ↔ name.map Byte.toLower = keyword.spelling := by
  constructor
  · intro found
    unfold ofName? at found
    split at found
    · cases found
      rfl
    · contradiction
  · intro equal
    have isReserved : name.map Byte.toLower ∈ reserved := equal ▸ keyword.isReserved
    cases keyword with
    | mk spelling member =>
        subst equal
        simp [ofName?, isReserved]

end Keyword

end PageScript
