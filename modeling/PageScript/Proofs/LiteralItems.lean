import PageScript.Literal.Items
import PageScript.Proofs.Encoding
import PageScript.Proofs.HeredocLines
import PageScript.Scanner

/-!
# The items of a token stream

Which tokens open a literal, which are parts of one, and which end it, by enclosure.
The items of a stream are then known from its front: a token that opens nothing is
passed over, and one that opens a body takes all its parts with it.
-/

namespace PageScript

namespace Utf8

theorem next?_singleQuote (rest : Bytes) :
    next? (Byte.singleQuote :: rest) = some ('\'', 1) :=
  next?_ascii (by decide) rest

end Utf8

namespace Token

/-- Whether a token may stand between the opener of a body and its terminator. -/
def isPart (token : Token) : Bool :=
  token.kind == .bodyText || token.kind == .variable

/-- The expression that a part of a body stands for. -/
def part (token : Token) : Expr :=
  if token.kind = .bodyText then .literal (Escape.decode token.data) token.span
  else .variable (token.data.drop 1) token.span

theorem isPart_iff {token : Token} :
    token.isPart ↔ token.kind = .bodyText ∨ token.kind = .variable := by
  simp [isPart]

/-- The byte of a character token that holds an ASCII character. -/
theorem data_of_isChar {kind : Kind} {span : Span} {byte code : UInt8}
    (isChar : (Token.mk kind span [byte]).isChar (Char.ofNat code.toNat)) (small : code < 0x80) :
    byte = code := by
  simp only [Token.isChar, firstChar?, Bool.and_eq_true, beq_iff_eq, Option.map_eq_some_iff,
    Prod.exists, exists_and_right, exists_eq_right] at isChar
  obtain ⟨-, size, read⟩ := isChar
  exact ((Utf8.isRead_of_next? read).eq_iff code small).mp rfl

end Token

namespace Closer

/-- Whether a token stands inside a body with a closer: a part of it or, between quotes, a
single character that begins with anything but the quote. -/
def isInside (closer : Closer) (token : Token) : Bool :=
  token.isPart ||
    match closer with
    | .heredoc => false
    | .quote char => token.kind == .char && token.firstChar? != some char

/-- Whether a token ends a body with a closer. -/
def ends (closer : Closer) (token : Token) : Bool :=
  match closer with
  | .heredoc => token.kind == .heredocEnd
  | .quote char => token.kind == .char && token.firstChar? == some char

theorem isInside_of_isPart (closer : Closer) {token : Token} (isPart : token.isPart) :
    closer.isInside token := by
  simp [isInside, isPart]

/-- What ends a body does not stand inside it. -/
theorem not_isInside_of_ends {closer : Closer} {token : Token} (ends : closer.ends token) :
    ¬ closer.isInside token := by
  cases closer with
  | heredoc =>
      have kind : token.kind = .heredocEnd := by simpa [Closer.ends] using ends
      simp [isInside, Token.isPart, kind]
  | quote char =>
      obtain ⟨kind, first⟩ : token.kind = .char ∧ token.firstChar? = some char := by
        simpa [Closer.ends] using ends
      simp [isInside, Token.isPart, kind, first]

end Closer

namespace Enclosure

/-- What ends the literals of an enclosure. -/
def closer : Enclosure → Closer
  | .doubleQuote => .quote Literal.doubleQuote
  | .backtick => .quote Literal.backtick
  | .heredoc _ => .heredoc

/-- The form of the literals of an enclosure. -/
def literal : Enclosure → LiteralKind
  | .doubleQuote => .doubleQuoted
  | .backtick => .backtick
  | .heredoc _ => .heredoc

@[simp] theorem closer_literal (enclosure : Enclosure) :
    enclosure.closer.literal = enclosure.literal := by
  cases enclosure <;> rfl

/-- A token opens a body: a quote, or the line that gives a heredoc its label. -/
def Opens : Enclosure → Token → Prop
  | .doubleQuote, token => token.kind = .char ∧ token.data = [Byte.doubleQuote]
  | .backtick, token => token.kind = .char ∧ token.data = [Byte.backtick]
  | .heredoc label, token => token.kind = .heredocStart ∧ Heredoc.IsHeader token.data label

/-- A token ends a body. -/
def Closes : Enclosure → Token → Prop
  | .doubleQuote, token => token.kind = .char ∧ token.data = [Byte.doubleQuote]
  | .backtick, token => token.kind = .char ∧ token.data = [Byte.backtick]
  | .heredoc _, token => token.kind = .heredocEnd

variable {enclosure : Enclosure} {token : Token}

theorem Opens.opening? (opens : enclosure.Opens token) :
    Literal.opening? token = some (.body enclosure.closer) := by
  obtain ⟨kind, span, data⟩ := token
  cases enclosure with
  | doubleQuote =>
      obtain ⟨rfl, rfl⟩ := opens
      rfl
  | backtick =>
      obtain ⟨rfl, rfl⟩ := opens
      rfl
  | heredoc label =>
      obtain ⟨rfl, -⟩ := opens
      rfl

/-- An opener is no part of a body. -/
theorem Opens.not_isPart (opens : enclosure.Opens token) : ¬ token.isPart := by
  rw [Token.isPart_iff]
  cases enclosure <;> simp [opens.1]

theorem Opens.valid (opens : enclosure.Opens token) : token.kind ≠ .invalid := by
  cases enclosure <;> simp [opens.1]

theorem Closes.valid (closes : enclosure.Closes token) : token.kind ≠ .invalid := by
  cases enclosure with
  | doubleQuote => simp [closes.1]
  | backtick => simp [closes.1]
  | heredoc label =>
      have kind : token.kind = .heredocEnd := closes
      simp [kind]

theorem Closes.ends (closes : enclosure.Closes token) : enclosure.closer.ends token := by
  obtain ⟨kind, span, data⟩ := token
  cases enclosure with
  | doubleQuote =>
      obtain ⟨rfl, rfl⟩ := closes
      rfl
  | backtick =>
      obtain ⟨rfl, rfl⟩ := closes
      rfl
  | heredoc label =>
      cases closes
      rfl

end Enclosure

namespace Literal

theorem role_of_isPart (closer : Closer) {token : Token} (isPart : token.isPart) :
    role closer token = .part token.part := by
  obtain ⟨kind, span, data⟩ := token
  rcases Token.isPart_iff.mp isPart with same | same
  · cases same
    rfl
  · cases same
    rfl

/-- What a token that is no part of a body is in it. -/
theorem role_of_not_isPart (closer : Closer) {token : Token} (noPart : ¬ token.isPart) :
    role closer token =
      if closer.isInside token then .skipped
      else if closer.ends token then .terminator
      else .stray := by
  obtain ⟨kind, span, data⟩ := token
  cases closer with
  | heredoc => cases kind <;> simp_all [role, Closer.isInside, Closer.ends, Token.isPart]
  | quote char =>
      cases kind <;> simp_all [role, Closer.isInside, Closer.ends, Token.isPart, Token.isChar]

/-- What stands inside a body leaves its parts in front of those that follow. -/
theorem takeBody_append (closer : Closer) {inside : List Token}
    (all : ∀ token ∈ inside, closer.isInside token) (rest : List Token) :
    takeBody closer (inside ++ rest) =
      { takeBody closer rest with
        parts := (inside.filter Token.isPart).map Token.part ++ (takeBody closer rest).parts } := by
  induction inside with
  | nil => rfl
  | cons token inside ih =>
      obtain ⟨isInside, others⟩ := List.forall_mem_cons.mp all
      rw [List.cons_append, takeBody, ih others]
      by_cases isPart : token.isPart
      · simp [role_of_isPart closer isPart, isPart]
      · simp [role_of_not_isPart closer isPart, isInside, isPart]

/-- A body ends at the first token that does not stand inside it. -/
theorem takeBody_cons_of_not_isInside {closer : Closer} {token : Token}
    (outside : ¬ closer.isInside token) (rest : List Token) :
    takeBody closer (token :: rest) = ⟨[], some (token, closer.ends token), rest⟩ := by
  have noPart : ¬ token.isPart := mt closer.isInside_of_isPart outside
  rw [takeBody, role_of_not_isPart closer noPart, if_neg outside]
  cases closer.ends token <;> rfl

/-- What a body is compiled to is decided by the first token that does not stand inside it.
That token is taken, and none behind it. -/
theorem compileBody_append (opener : Token) {closer : Closer} {inside : List Token}
    (all : ∀ token ∈ inside, closer.isInside token) {last : Token}
    (outside : ¬ closer.isInside last) (rest : List Token) :
    compileBody closer opener (inside ++ last :: rest) =
      (if closer.ends last then
          .ok (.concat ((inside.filter Token.isPart).map Token.part) (cover opener last))
        else .error (.unexpectedToken last.unexpected), rest) := by
  rw [compileBody, takeBody_append closer all, takeBody_cons_of_not_isInside outside]
  cases closer.ends last <;> simp

/-- A body in which no such token follows is reported at its opener. -/
theorem compileBody_of_all_inside (opener : Token) {closer : Closer} {inside : List Token}
    (all : ∀ token ∈ inside, closer.isInside token) :
    compileBody closer opener inside =
      (.error (.unexpectedEnd closer.literal opener.span), []) := by
  have taken := takeBody_append closer all []
  rw [List.append_nil] at taken
  simp [compileBody, taken, takeBody]

variable {enclosure : Enclosure} {parts : List Token}

/-- A body with its terminator is compiled from its parts. -/
theorem compileBody_of_closes (opener : Token) (all : ∀ part ∈ parts, part.isPart)
    {terminator : Token} (closes : enclosure.Closes terminator) (rest : List Token) :
    compileBody enclosure.closer opener (parts ++ terminator :: rest) =
      (.ok (.concat (parts.map Token.part) (cover opener terminator)), rest) := by
  have inside := fun part member => enclosure.closer.isInside_of_isPart (all part member)
  rw [compileBody_append opener inside (Closer.not_isInside_of_ends closes.ends),
    if_pos closes.ends, List.filter_eq_self.mpr all]

/-- A body without a terminator is reported at its opener. -/
theorem compileBody_of_cutOff (opener : Token) (all : ∀ part ∈ parts, part.isPart) :
    compileBody enclosure.closer opener parts =
      (.error (.unexpectedEnd enclosure.literal opener.span), []) := by
  rw [compileBody_of_all_inside opener fun part member =>
    enclosure.closer.isInside_of_isPart (all part member), Enclosure.closer_literal]

@[simp] theorem items_nil : items [] = [] := by
  rw [items]
  rfl

variable {token : Token} {tokens rest : List Token} {item : Item}

/-- A token that opens nothing is passed over. -/
theorem items_cons_of_none (opensNothing : opening? token = none) :
    items (token :: tokens) = items tokens := by
  have passed : next? (token :: tokens) = next? tokens := by
    rw [next?, opensNothing]
  rw [items, items, passed]

/-- A token that opens a literal gives an item, and the tokens not taken give the others. -/
theorem items_cons_of_some {opening : Opening} (opens : opening? token = some opening)
    (compiled : compile opening token tokens = (item, rest)) :
    items (token :: tokens) = item :: items rest := by
  have found : next? (token :: tokens) = some (item, rest) := by
    rw [next?, opens]
    exact congrArg some compiled
  rw [items]
  split
  · next none => simp [found] at none
  · next other _ same =>
      cases found.symm.trans same
      rfl

/-- A quoted string is a literal of its own. -/
theorem items_cons_of_quoted {body : Bytes} (kind : token.kind = .singleQuoted)
    (data : token.data = Byte.singleQuote :: body ++ [Byte.singleQuote]) :
    items (token :: tokens) =
      .ok (.literal (Escape.decodeSingle body) token.span) :: items tokens := by
  have opens : opening? token = some .single := by simp [opening?, kind]
  have compiled : compileSingle token =
      .ok (.literal (Escape.decodeSingle body) token.span) := by
    simp [compileSingle, data]
  exact items_cons_of_some opens (Prod.ext compiled rfl)

/-- A quote that is not closed is reported where it stands. -/
theorem items_cons_of_cutOffQuote {body : Bytes} (kind : token.kind = .invalid)
    (data : token.data = Byte.singleQuote :: body) :
    items (token :: tokens) = .error (.malformed token.span) :: items tokens := by
  have opens : opening? token = some .unterminated := by
    simp [opening?, kind, Token.firstChar?, data, Utf8.next?_singleQuote]
  exact items_cons_of_some opens rfl

/-- A literal takes its parts and its terminator. -/
theorem items_cons_of_closes (opens : enclosure.Opens token) (all : ∀ part ∈ parts, part.isPart)
    {terminator : Token} (closes : enclosure.Closes terminator) (rest : List Token) :
    items (token :: (parts ++ terminator :: rest)) =
      .ok (.concat (parts.map Token.part) (cover token terminator)) :: items rest :=
  items_cons_of_some opens.opening? (compileBody_of_closes token all closes rest)

/-- A literal that is not closed is the last item. -/
theorem items_cons_of_cutOff (opens : enclosure.Opens token) (all : ∀ part ∈ parts, part.isPart) :
    items (token :: parts) = [.error (.unexpectedEnd enclosure.literal token.span)] := by
  rw [items_cons_of_some opens.opening? (compileBody_of_cutOff token all), items_nil]

end Literal

end PageScript
