import PageScript.Literal.Compile

/-!
# Literals of a token stream

Every token that opens a literal gives one item, a compiled literal or an error.
All other tokens are passed over.  A literal takes its tokens from the same stream,
so each literal is seen exactly once and the next one is looked for right after it.
-/

namespace PageScript.Literal

/-- One item of the stream of literals. -/
abbrev Item := Except LiteralError Expr

/-- What a token opens. -/
inductive Opening where
  /-- A literal that is complete in its token. -/
  | single
  /-- A single-quoted string that the end of the page cuts off. -/
  | unterminated
  /-- A literal whose body follows. -/
  | body (closer : Closer)
  deriving DecidableEq

/-- The double quote as a character. -/
abbrev doubleQuote : Char := '"'

/-- The backtick as a character. -/
abbrev backtick : Char := Char.ofNat 0x60

/-- What a token opens outside literals, if it opens anything. -/
def opening? (token : Token) : Option Opening :=
  match token.kind with
  | .singleQuoted => some .single
  | .invalid => if token.firstChar? = some '\'' then some .unterminated else none
  | .heredocStart => some (.body .heredoc)
  | .char =>
      if token.isChar doubleQuote then some (.body (.quote doubleQuote))
      else if token.isChar backtick then some (.body (.quote backtick))
      else none
  | _ => none

/-- Compile what a token opens, with the tokens that were not taken. -/
def compile (opening : Opening) (token : Token) (rest : List Token) : Item × List Token :=
  match opening with
  | .single => (compileSingle token, rest)
  | .unterminated => (.error (.malformed token.span), rest)
  | .body closer => compileBody closer token rest

/-- The next item, with the tokens after it. -/
def next? : List Token → Option (Item × List Token)
  | [] => none
  | token :: rest =>
      match opening? token with
      | some opening => some (compile opening token rest)
      | none => next? rest

theorem rest_length_lt_of_next? {tokens rest : List Token} {item : Item}
    (found : next? tokens = some (item, rest)) : rest.length < tokens.length := by
  induction tokens with
  | nil => simp [next?] at found
  | cons token tail ih =>
      unfold next? at found
      split at found
      · next opening _ =>
          have equal := congrArg Prod.snd (Option.some.inj found)
          subst equal
          have shorter : (compile opening token tail).2.length ≤ tail.length := by
            cases opening with
            | single => exact Nat.le_refl _
            | unterminated => exact Nat.le_refl _
            | body closer => exact compileBody_rest_length_le closer token tail
          exact Nat.lt_succ_of_le shorter
      · exact Nat.lt_succ_of_lt (ih found)

/-- Every item of a stream of tokens, in order. -/
def items (tokens : List Token) : List Item :=
  match _found : next? tokens with
  | none => []
  | some (item, rest) => item :: items rest
  termination_by tokens.length
  decreasing_by exact rest_length_lt_of_next? _found

/-- At most `count` items, with the tokens after them. -/
def take : Nat → List Token → List Item × List Token
  | 0, tokens => ([], tokens)
  | count + 1, tokens =>
      match next? tokens with
      | none => ([], [])
      | some (item, rest) =>
          let (items, remaining) := take count rest
          (item :: items, remaining)

end PageScript.Literal
