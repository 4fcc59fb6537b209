import PageScript.Proofs.Stream

/-!
# What is reported about a page

The scan of a page gives warnings, and compiling the literals of its tokens gives
errors.  Both come from the one construct that the end of the page may cut off, so they
agree: a string that is cut off gives a warning and an error, a comment a warning alone,
and nothing else gives either.

`Verdict` lists the four ways in which a page can end and carries the induction;
`Reported` is what is read off from it.
-/

namespace PageScript.Literal

/-- A literal is opened and not closed: nothing but parts of its body follow. -/
def IsUnclosed (tokens : List Token) (enclosure : Enclosure) (opener : Token) : Prop :=
  ∃ before parts, tokens = before ++ opener :: parts ∧ enclosure.Opens opener ∧
    ∀ part ∈ parts, part.isPart

/-- The opener of an unclosed literal is the last token that is no part of a body. -/
theorem IsUnclosed.find? {tokens : List Token} {enclosure : Enclosure} {opener : Token}
    (unclosed : IsUnclosed tokens enclosure opener) :
    tokens.reverse.find? (fun token => !token.isPart) = some opener := by
  obtain ⟨before, parts, rfl, opens, all⟩ := unclosed
  have none : parts.reverse.find? (fun token => !token.isPart) = none := by
    simpa using all
  have notPart := opens.not_isPart
  simp [List.find?_append, none, notPart]

theorem IsUnclosed.prepend {tokens : List Token} {enclosure : Enclosure} {opener : Token}
    (front : List Token) (unclosed : IsUnclosed tokens enclosure opener) :
    IsUnclosed (front ++ tokens) enclosure opener := by
  obtain ⟨before, parts, rfl, opens, all⟩ := unclosed
  exact ⟨front ++ before, parts, (List.append_assoc ..).symm, opens, all⟩

/-- No token is invalid. -/
def AllValid (tokens : List Token) : Prop :=
  ∀ token ∈ tokens, token.kind ≠ .invalid

/-- How the tokens of a page end, with the warnings and the items that go with that. -/
inductive Verdict (tokens : List Token) : List Warning → List Item → Prop where
  | complete (exprs : List Expr) :
      AllValid tokens → Verdict tokens [] (exprs.map .ok)
  | comment (exprs : List Expr) {line column : UInt32} :
      AllValid tokens → Verdict tokens [.comment line column] (exprs.map .ok)
  | singleQuoted (exprs : List Expr) {last : Token} {line column : UInt32} :
      tokens.getLast? = some last → last.kind = .invalid →
      Verdict tokens [.singleQuoted line column]
        (exprs.map .ok ++ [.error (.malformed last.span)])
  | body (exprs : List Expr) {enclosure : Enclosure} {opener : Token} :
      AllValid tokens → IsUnclosed tokens enclosure opener →
      Verdict tokens [.body enclosure]
        (exprs.map .ok ++ [.error (.unexpectedEnd enclosure.literal opener.span)])

theorem AllValid.append {front tokens : List Token} (first : AllValid front)
    (later : AllValid tokens) : AllValid (front ++ tokens) := by
  intro token member
  rcases List.mem_append.mp member with inFront | inTokens
  · exact first token inFront
  · exact later token inTokens

theorem AllValid.of_isPart {parts : List Token} (all : ∀ part ∈ parts, part.isPart) :
    AllValid parts := by
  intro part member
  rcases Token.isPart_iff.mp (all part member) with kind | kind <;> simp [kind]

/-- The tokens of a literal are valid. -/
theorem AllValid.literal {opener terminator : Token} {parts : List Token}
    (body : AllValid parts) (first : opener.kind ≠ .invalid)
    (last : terminator.kind ≠ .invalid) : AllValid (opener :: (parts ++ [terminator])) := by
  refine List.forall_mem_cons.mpr ⟨first, body.append ?_⟩
  simpa [AllValid] using last

/-- Valid tokens before a page, with the literals that they give, change nothing about
how it ends. -/
theorem Verdict.prepend {front tokens : List Token} {warnings : List Warning}
    {items : List Item} (valid : AllValid front) (exprs : List Expr)
    (verdict : Verdict tokens warnings items) :
    Verdict (front ++ tokens) warnings (exprs.map .ok ++ items) := by
  cases verdict with
  | complete _ later =>
      rw [← List.map_append]
      exact .complete _ (valid.append later)
  | comment _ later =>
      rw [← List.map_append]
      exact .comment _ (valid.append later)
  | singleQuoted _ last invalid =>
      rw [← List.append_assoc, ← List.map_append]
      exact .singleQuoted _ (by simp [List.getLast?_append, last]) invalid
  | body _ later unclosed =>
      rw [← List.append_assoc, ← List.map_append]
      exact .body _ (valid.append later) (unclosed.prepend front)

/-- A stream ends in one of the four ways. -/
theorem verdict_of_stream {file : FileId} {behind ahead : Bytes} {tokens : List Token}
    {warnings : List Warning} (stream : Stream file behind ahead tokens warnings) :
    Verdict tokens warnings (items tokens) := by
  induction stream with
  | finished =>
      rw [items_nil]
      exact .complete [] (by simp [AllValid])
  | @other behind data rest kind tokens warnings _ valid opensNothing _ ih =>
      rw [items_cons_of_none opensNothing]
      have front : AllValid [Token.after file behind kind data] := by
        simpa [AllValid, Token.after] using valid
      exact ih.prepend front []
  | @cutOffComment behind data kind line column _ plain =>
      rw [items_cons_of_none (opening?_of_isPlain plain), items_nil]
      refine .comment [] ?_
      simp only [AllValid, List.mem_singleton, forall_eq]
      intro invalid
      simp [Token.after] at invalid
      simp [invalid, Kind.isPlain] at plain
  | @singleQuoted behind data body rest tokens warnings quoted _ ih =>
      rw [items_cons_of_quoted rfl quoted]
      have front : AllValid [Token.after file behind .singleQuoted data] := by
        simp [AllValid, Token.after]
      exact ih.prepend front [_]
  | @cutOffQuote behind body line column =>
      rw [items_cons_of_cutOffQuote rfl rfl, items_nil]
      exact .singleQuoted [] rfl rfl
  | @literal behind opening body closing rest kind enclosure parts tokens warnings opens content
      _ ih =>
      have all := content.isPart file (opening.reverse ++ behind)
      have closes := content.closes file (body.reverse ++ (opening.reverse ++ behind))
      rw [items_cons_of_closes opens all closes]
      have front := (AllValid.of_isPart all).literal opens.valid closes.valid
      simpa using ih.prepend front [_]
  | @cutOffLiteral behind opening body kind enclosure parts opens _ shape =>
      have all := Lexeme.place_isPart file (opening.reverse ++ behind) body shape.kind
      rw [items_cons_of_cutOff opens all]
      refine .body [] ?_ ⟨[], _, rfl, opens, all⟩
      exact List.forall_mem_cons.mpr ⟨opens.valid, AllValid.of_isPart all⟩

/-- The warnings and the items of a page agree. -/
structure Reported (tokens : List Token) (warnings : List Warning) (items : List Item) :
    Prop where
  /-- No token is out of place in a literal. -/
  noUnexpected : ∀ unexpected, .error (.unexpectedToken unexpected) ∉ items
  /-- Only the last item may be an error. -/
  errorLast : ∃ (exprs : List Expr) (error? : Option LiteralError),
    items = exprs.map .ok ++ (error?.map .error).toList
  malformed_iff : ∀ span, .error (.malformed span) ∈ items ↔
    ∃ last, tokens.getLast? = some last ∧ last.kind = .invalid ∧ last.span = span
  invalid_iff : (∃ last, tokens.getLast? = some last ∧ last.kind = .invalid) ↔
    ∃ line column, .singleQuoted line column ∈ warnings
  unexpectedEnd_iff : ∀ literal span, .error (.unexpectedEnd literal span) ∈ items ↔
    ∃ enclosure opener, .body enclosure ∈ warnings ∧ IsUnclosed tokens enclosure opener ∧
      enclosure.literal = literal ∧ opener.span = span
  unclosed : ∀ enclosure, .body enclosure ∈ warnings →
    ∃ opener, IsUnclosed tokens enclosure opener
  /-- A comment that is cut off is no error, and nor is a page without warnings. -/
  allOk_iff : (∀ item ∈ items, ∃ expr, item = .ok expr) ↔
    ∀ warning ∈ warnings, ∃ line column, warning = .comment line column
  warnings_length_le : warnings.length ≤ 1

/-- An opener is unclosed at only one place. -/
theorem IsUnclosed.unique {tokens : List Token} {enclosure other : Enclosure}
    {opener found : Token} (unclosed : IsUnclosed tokens enclosure opener)
    (again : IsUnclosed tokens other found) : found = opener :=
  Option.some.inj (again.find?.symm.trans unclosed.find?)

namespace AllValid

variable {tokens : List Token} {warnings : List Warning}

/-- The last of valid tokens is valid. -/
theorem getLast? (valid : AllValid tokens) :
    ¬ ∃ last, tokens.getLast? = some last ∧ last.kind = .invalid := by
  rintro ⟨last, found, invalid⟩
  exact valid last (List.mem_of_getLast? found) invalid

/-- Where all tokens are valid, no string is malformed. -/
theorem malformed_iff (valid : AllValid tokens) {items : List Item} {span : Span}
    (none : .error (.malformed span) ∉ items) : .error (.malformed span) ∈ items ↔
      ∃ last, tokens.getLast? = some last ∧ last.kind = .invalid ∧ last.span = span := by
  constructor
  · exact fun member => absurd member none
  · rintro ⟨last, found, invalid, -⟩
    exact absurd ⟨last, found, invalid⟩ valid.getLast?

/-- A page on which at most a comment is cut off has no errors. -/
theorem reported (valid : AllValid tokens) (exprs : List Expr)
    (comments : ∀ warning ∈ warnings, ∃ line column, warning = .comment line column)
    (few : warnings.length ≤ 1) : Reported tokens warnings (exprs.map .ok) where
  noUnexpected := by simp
  errorLast := ⟨exprs, none, by simp⟩
  malformed_iff span := valid.malformed_iff (by simp)
  invalid_iff := by
    constructor
    · exact fun invalid => absurd invalid valid.getLast?
    · rintro ⟨line, column, member⟩
      obtain ⟨_, _, same⟩ := comments _ member
      contradiction
  unexpectedEnd_iff literal span := by
    constructor
    · simp
    · rintro ⟨enclosure, opener, member, -⟩
      obtain ⟨_, _, same⟩ := comments _ member
      contradiction
  unclosed enclosure member := by
    obtain ⟨_, _, same⟩ := comments _ member
    contradiction
  allOk_iff := ⟨fun _ => comments, by simp⟩
  warnings_length_le := few

end AllValid

theorem Verdict.reported {tokens : List Token} {warnings : List Warning} {items : List Item}
    (verdict : Verdict tokens warnings items) : Reported tokens warnings items := by
  cases verdict with
  | complete exprs valid => exact valid.reported exprs (by simp) (by simp)
  | comment exprs valid => exact valid.reported exprs (by simp) (by simp)
  | @singleQuoted exprs last line column found invalid =>
      refine ⟨by simp, ⟨exprs, some (.malformed last.span), by simp⟩, ?_, ?_, by simp, by simp,
        ?_, by simp⟩
      · intro span
        simp [found, invalid, eq_comm]
      · simp [found, invalid]
      · constructor
        · intro all
          simpa using all (.error (.malformed last.span)) (by simp)
        · simp
  | @body exprs enclosure opener valid unclosed =>
      refine ⟨by simp, ⟨exprs, some (.unexpectedEnd enclosure.literal opener.span), by simp⟩,
        fun span => valid.malformed_iff (by simp), ?_, ?_, ?_, ?_, by simp⟩
      · exact ⟨fun invalid => absurd invalid valid.getLast?, by simp⟩
      · intro literal span
        constructor
        · intro member
          simp only [List.mem_append, List.mem_map, reduceCtorEq, and_false, exists_false,
            List.mem_singleton, Except.error.injEq, LiteralError.unexpectedEnd.injEq,
            false_or] at member
          exact ⟨enclosure, opener, by simp, unclosed, member.1.symm, member.2.symm⟩
        · rintro ⟨other, found, warned, again, rfl, rfl⟩
          simp only [List.mem_singleton, Warning.body.injEq] at warned
          rw [warned, unclosed.unique again]
          simp
      · rintro other warned
        simp only [List.mem_singleton, Warning.body.injEq] at warned
        exact ⟨opener, warned ▸ unclosed⟩
      · constructor
        · intro all
          simpa using all (.error (.unexpectedEnd enclosure.literal opener.span)) (by simp)
        · simp

/-- What the scan of a page warns about and what its literals report agree. -/
theorem scan_reported {mode : Mode} (outside : mode.isOutside) (bytes : Bytes) (file : FileId) :
    Reported (scan mode bytes file).tokens (scan mode bytes file).warnings
      (items (scan mode bytes file).tokens) :=
  (verdict_of_stream (scan_stream outside bytes file)).reported

/-- A string that is cut off behind a variable. -/
theorem scan_reported_cutOff :
    Mode.script.isOutside ∧
      Reported (scan .script (Bytes.ascii "\"a$b") {}).tokens
        (scan .script (Bytes.ascii "\"a$b") {}).warnings
        (items (scan .script (Bytes.ascii "\"a$b") {}).tokens) :=
  ⟨rfl, scan_reported rfl _ _⟩

end PageScript.Literal
