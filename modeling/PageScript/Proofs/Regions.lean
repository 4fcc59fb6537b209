import PageScript.Proofs.Stream

/-!
# The regions of a page

Seen from its tokens alone, a page is text, script or the body of a string, and each token
may stand in some of these regions only.  `Region.step` is the automaton that says which
token may follow, and it knows nothing of bytes left or of modes.

The mode of a scan and the region of its tokens go together: what a call publishes leads
from the region of its mode to that of the next one.  So the automaton never gets stuck on
the tokens of a page.
-/

namespace PageScript

/-- What a body with variables stands between. -/
inductive Delimiter where
  | doubleQuote
  | backtick
  | heredoc
  deriving DecidableEq

namespace Delimiter

/-- The quote that the bytes of a character token are. -/
def ofQuote? (data : Bytes) : Option Delimiter :=
  if data = [Byte.doubleQuote] then some .doubleQuote
  else if data = [Byte.backtick] then some .backtick
  else none

@[simp] theorem ofQuote?_doubleQuote : ofQuote? [Byte.doubleQuote] = some .doubleQuote := rfl

@[simp] theorem ofQuote?_backtick : ofQuote? [Byte.backtick] = some .backtick := rfl

/-- Whether a token ends a body. -/
def closes : Delimiter → Token → Bool
  | .heredoc, token => token.kind == .heredocEnd
  | quote, token => token.kind == .char && ofQuote? token.data == some quote

end Delimiter

/-- Where the tokens so far have led. -/
inductive Region where
  /-- Text, of which no token has been seen. -/
  | text
  /-- Text that has been seen: only a tag may follow. -/
  | seenText
  | script
  /-- The body of a string, and whether its last token is text. -/
  | body (delimiter : Delimiter) (afterText : Bool)
  /-- Behind an invalid token. -/
  | halted
  deriving DecidableEq

namespace Region

/-- The region behind a token, if the token may stand in this one. -/
def step : Region → Token → Option Region
  | .text, token =>
      match token.kind with
      | .inlineHtml => some .seenText
      | .openTag | .echoTag => some .script
      | _ => none
  | .seenText, token =>
      match token.kind with
      | .openTag | .echoTag => some .script
      | _ => none
  | .script, token =>
      match token.kind with
      | .closeTag => some .text
      | .heredocStart => some (.body .heredoc false)
      | .char =>
          match Delimiter.ofQuote? token.data with
          | some quote => some (.body quote false)
          | none => some .script
      | .invalid => some .halted
      | .whitespace | .comment | .docComment | .variable | .name | .keyword _ | .integer
      | .decimal | .singleQuoted | .operator => some .script
      | .inlineHtml | .openTag | .echoTag | .bodyText | .heredocEnd => none
  | .body delimiter afterText, token =>
      if delimiter.closes token then
        some .script
      else
        match token.kind with
        | .bodyText => if afterText then none else some (.body delimiter true)
        | .variable => some (.body delimiter false)
        | _ => none
  | .halted, _ => none

/-- The region behind tokens, if each may stand where it does. -/
def run : Region → List Token → Option Region
  | region, [] => some region
  | region, token :: rest => (region.step token).bind fun next => next.run rest

variable {region next last : Region} {token : Token} {front back tokens : List Token}

@[simp] theorem run_nil (region : Region) : region.run [] = some region := rfl

theorem run_cons_of_step (stepped : region.step token = some next) (rest : List Token) :
    region.run (token :: rest) = next.run rest := by
  rw [run, stepped]
  rfl

theorem run_append (region : Region) (front back : List Token) :
    region.run (front ++ back) = (region.run front).bind fun next => next.run back := by
  induction front generalizing region with
  | nil => rfl
  | cons token front ih =>
      rw [List.cons_append, run, run]
      cases region.step token with
      | none => rfl
      | some next => exact ih next

theorem run_append_of_run (ran : region.run front = some next) (back : List Token) :
    region.run (front ++ back) = next.run back := by
  rw [run_append, ran]
  rfl

/-- A token among those that an automaton accepts may stand where it does. -/
theorem exists_step_of_run (accepted : region.run (front ++ token :: back) = some last) :
    ∃ before after, region.run front = some before ∧ before.step token = some after ∧
      after.run back = some last := by
  rw [run_append] at accepted
  obtain ⟨before, ran, onward⟩ := Option.bind_eq_some_iff.mp accepted
  obtain ⟨after, stepped, rest⟩ := Option.bind_eq_some_iff.mp onward
  exact ⟨before, after, ran, stepped, rest⟩

/-- Nothing follows an invalid token. -/
theorem eq_nil_of_invalid (accepted : region.run (front ++ token :: back) = some last)
    (invalid : token.kind = .invalid) : back = [] := by
  obtain ⟨before, after, -, stepped, ran⟩ := exists_step_of_run accepted
  have halted : after = .halted := by
    cases before with
    | text => simp [step, invalid] at stepped
    | seenText => simp [step, invalid] at stepped
    | script => simpa [step, invalid] using stepped.symm
    | body delimiter afterText =>
        cases delimiter <;> simp [step, Delimiter.closes, invalid] at stepped
    | halted => simp [step] at stepped
  cases back with
  | nil => rfl
  | cons => simp [halted, run, step] at ran

/-- Some tokens stand in the body of a string only. -/
theorem exists_body_of_step (stepped : region.step token = some next)
    (inside : token.kind = .bodyText ∨ token.kind = .heredocEnd) :
    ∃ delimiter afterText, region = .body delimiter afterText := by
  cases region with
  | text => rcases inside with kind | kind <;> simp [step, kind] at stepped
  | seenText => rcases inside with kind | kind <;> simp [step, kind] at stepped
  | script => rcases inside with kind | kind <;> simp [step, kind] at stepped
  | body delimiter afterText => exact ⟨delimiter, afterText, rfl⟩
  | halted => simp [step] at stepped

/-- Text of a body stands in a body, and not behind text. -/
theorem exists_body_of_bodyText (stepped : region.step token = some next)
    (kind : token.kind = .bodyText) : ∃ delimiter, region = .body delimiter false := by
  obtain ⟨delimiter, afterText, rfl⟩ := exists_body_of_step stepped (.inl kind)
  cases afterText with
  | false => exact ⟨delimiter, rfl⟩
  | true => cases delimiter <;> simp [step, Delimiter.closes, kind] at stepped

/-- The end of a heredoc stands in the body of one. -/
theorem exists_body_of_heredocEnd (stepped : region.step token = some next)
    (kind : token.kind = .heredocEnd) : ∃ afterText, region = .body .heredoc afterText := by
  obtain ⟨delimiter, afterText, rfl⟩ := exists_body_of_step stepped (.inr kind)
  cases delimiter with
  | heredoc => exact ⟨afterText, rfl⟩
  | doubleQuote => simp [step, Delimiter.closes, kind] at stepped
  | backtick => simp [step, Delimiter.closes, kind] at stepped

/-- In the body of a quoted string a token is a part, or a character that closes it. -/
theorem step_quoted {quote : Delimiter} {afterText : Bool} (quoted : quote ≠ .heredoc)
    (stepped : (Region.body quote afterText).step token = some next) :
    (quote.closes token ∧ token.kind = .char) ∨
      (token.kind ≠ .char ∧ ∃ afterText, next = .body quote afterText) := by
  rw [step] at stepped
  split at stepped
  · next closes =>
      refine .inl ⟨closes, ?_⟩
      cases quote with
      | heredoc => contradiction
      | doubleQuote => simpa using (Bool.and_eq_true_iff.mp closes).1
      | backtick => simpa using (Bool.and_eq_true_iff.mp closes).1
  · right
    split at stepped
    · next kind =>
        obtain ⟨-, same⟩ := Option.ite_none_left_eq_some.mp stepped
        exact ⟨by simp [kind], true, (Option.some.inj same).symm⟩
    · next kind => exact ⟨by simp [kind], false, (Option.some.inj stepped).symm⟩
    · contradiction

/-- The first character token in the body of a quoted string closes it. -/
theorem closes_of_char {quote : Delimiter} {afterText : Bool} (quoted : quote ≠ .heredoc)
    (accepted : (Region.body quote afterText).run (front ++ token :: back) = some last)
    (plain : ∀ other ∈ front, other.kind ≠ .char) (kind : token.kind = .char) :
    quote.closes token := by
  induction front generalizing afterText with
  | nil =>
      obtain ⟨next, stepped, -⟩ := Option.bind_eq_some_iff.mp accepted
      rcases step_quoted quoted stepped with ⟨closes, -⟩ | ⟨other, -⟩
      · exact closes
      · contradiction
  | cons first front ih =>
      obtain ⟨notChar, others⟩ := List.forall_mem_cons.mp plain
      obtain ⟨next, stepped, ran⟩ := Option.bind_eq_some_iff.mp accepted
      rcases step_quoted quoted stepped with ⟨-, isChar⟩ | ⟨-, after, rfl⟩
      · contradiction
      · exact ih ran others

/-- A token that neither opens nor ends anything leaves a script a script. -/
theorem step_script_of_isPlain (plain : token.kind.isPlain) :
    Region.script.step token = some .script := by
  rw [step]
  cases kind : token.kind <;> simp_all [Kind.isPlain]

/-- A character that is no quote does as well. -/
theorem step_script_of_not_quote {byte : UInt8} (kind : token.kind = .char)
    (data : token.data = [byte]) (notDouble : byte ≠ Byte.doubleQuote)
    (notBacktick : byte ≠ Byte.backtick) : Region.script.step token = some .script := by
  simp [step, kind, data, Delimiter.ofQuote?, notDouble, notBacktick]

theorem step_body_of_bodyText (delimiter : Delimiter) (kind : token.kind = .bodyText) :
    (body delimiter false).step token = some (.body delimiter true) := by
  cases delimiter <;> simp [step, Delimiter.closes, kind]

theorem step_body_of_variable (delimiter : Delimiter) (afterText : Bool)
    (kind : token.kind = .variable) :
    (body delimiter afterText).step token = some (.body delimiter false) := by
  cases delimiter <;> simp [step, Delimiter.closes, kind]

theorem step_body_of_closes {delimiter : Delimiter} {afterText : Bool}
    (closes : delimiter.closes token) : (body delimiter afterText).step token = some .script := by
  rw [step, if_pos closes]

end Region

/-- What a body of an enclosure stands between. -/
def Enclosure.delimiter : Enclosure → Delimiter
  | .doubleQuote => .doubleQuote
  | .backtick => .backtick
  | .heredoc _ => .heredoc

theorem Enclosure.Closes.delimiter_closes {enclosure : Enclosure} {token : Token}
    (closes : enclosure.Closes token) : enclosure.delimiter.closes token := by
  cases enclosure with
  | doubleQuote => exact Bool.and_eq_true_iff.mpr ⟨beq_iff_eq.mpr closes.1, by rw [closes.2]; rfl⟩
  | backtick => exact Bool.and_eq_true_iff.mpr ⟨beq_iff_eq.mpr closes.1, by rw [closes.2]; rfl⟩
  | heredoc label => exact beq_iff_eq.mpr closes

/-- The region of the tokens before a mode. -/
def Mode.region : Mode → Region
  | .text => .text
  | .script => .script
  | .body enclosure => .body enclosure.delimiter false

/-- The parts of a body lead on in the body. -/
theorem Lexeme.IsParts.run {enclosure : Enclosure} {body rest : Bytes} {parts : List Lexeme}
    (shape : IsParts enclosure body parts rest) (file : FileId) (behind : Bytes)
    (delimiter : Delimiter) : ∃ afterText,
      (Region.body delimiter false).run (place file behind body parts) =
        some (.body delimiter afterText) := by
  induction shape generalizing behind with
  | @text data rest length =>
      rw [place_text]
      split
      · exact ⟨false, rfl⟩
      · exact ⟨true, Region.run_cons_of_step (Region.step_body_of_bodyText delimiter rfl) []⟩
  | @interpolated data sigiled body rest parts length isVariable stops _ ih =>
      obtain ⟨afterText, ran⟩ := ih (sigiled.reverse ++ (data.reverse ++ behind))
      refine ⟨afterText, ?_⟩
      rw [place_interpolated, place_bodyText]
      have named (afterText : Bool) : (Region.body delimiter afterText).step
          (.after file (data.reverse ++ behind) .variable sigiled) =
            some (.body delimiter false) :=
        Region.step_body_of_variable delimiter afterText rfl
      split
      · rw [List.nil_append, Region.run_cons_of_step (named false), ran]
      · rw [List.singleton_append,
          Region.run_cons_of_step (Region.step_body_of_bodyText delimiter rfl),
          Region.run_cons_of_step (named true), ran]

namespace Mode

variable {ahead : Bytes} {cut : Cut}

/-- Tokens lead from a region to that of a mode, or anywhere if no mode follows. -/
def Leads (region : Region) (tokens : List Token) : Option Mode → Prop
  | some mode => region.run tokens = some mode.region
  | none => ∃ last, region.run tokens = some last

theorem IsTextCut.leads (shape : IsTextCut ahead cut) (file : FileId) (behind : Bytes) :
    Leads .text (Lexeme.place file behind ahead cut.lexemes) cut.next := by
  cases shape with
  | @tagged text rest tag length found =>
      have kind := Lexeme.openTag?_kind found
      have tagged (region : Region) (possible : region = .text ∨ region = .seenText)
          (before data : Bytes) :
          region.step (.after file before tag.kind data) = some .script := by
        rcases possible with rfl | rfl <;> rcases kind with same | same <;>
          simp [Region.step, Token.after, same]
      rw [Lexeme.place_append, Lexeme.html, Leads]
      split
      · exact Region.run_cons_of_step (tagged .text (.inl rfl) _ _) []
      · exact Region.run_cons_of_step (tagged .seenText (.inr rfl) _ _) []
  | untagged =>
      rw [Lexeme.html, Leads]
      split
      · exact ⟨.text, rfl⟩
      · exact ⟨.seenText, rfl⟩

theorem IsScriptCut.leads (shape : IsScriptCut ahead cut) (file : FileId) (behind : Bytes) :
    Leads .script (Lexeme.place file behind ahead cut.lexemes) cut.next := by
  cases shape with
  | finished => exact ⟨.script, rfl⟩
  | plain plain => exact Region.run_cons_of_step (Region.step_script_of_isPlain plain) []
  | char notDouble notBacktick =>
      exact Region.run_cons_of_step
        (Region.step_script_of_not_quote rfl rfl notDouble notBacktick) []
  | closeTag => rfl
  | cutOffComment plain =>
      exact Region.run_cons_of_step (Region.step_script_of_isPlain plain) []
  | singleQuoted => rfl
  | cutOffQuote => exact ⟨.halted, rfl⟩
  | doubleQuote => rfl
  | backtick => rfl
  | closedHeredoc => rfl
  | heredoc => rfl

theorem IsBodyCut.leads {enclosure : Enclosure} (shape : IsBodyCut enclosure ahead cut)
    (file : FileId) (behind : Bytes) :
    Leads (.body enclosure.delimiter false) (Lexeme.place file behind ahead cut.lexemes)
      cut.next := by
  cases shape with
  | closed shape =>
      obtain ⟨body, closing, rest, parts, rfl, rfl, shape, found⟩ := shape.exists_closing
      have closes := Enclosure.closes_of_terminator? found file (body.reverse ++ behind)
      obtain ⟨afterText, ran⟩ := shape.run file behind enclosure.delimiter
      rw [shape.place_closing]
      exact (Region.run_append_of_run ran _).trans
        (Region.run_cons_of_step (Region.step_body_of_closes closes.delimiter_closes) [])
  | cutOff shape =>
      cases shape with
      | cutOff shape =>
          obtain ⟨afterText, ran⟩ := shape.run file behind enclosure.delimiter
          exact ⟨.body enclosure.delimiter afterText, ran⟩

end Mode

namespace Call

/-- What a call publishes leads from the region of its mode to that of the next one. -/
theorem tokens_leads (file : FileId) (call : Call) :
    Mode.Leads call.mode.region (call.tokens file) call.cut.next := by
  obtain ⟨mode, behind, ahead⟩ := call
  cases mode with
  | text => exact (Mode.cutText_isTextCut ahead).leads file behind
  | script => exact (Mode.cutScript_isScriptCut ahead).leads file behind
  | body enclosure => exact (Mode.cutBody_isBodyCut enclosure ahead).leads file behind

/-- The tokens of a call and of all that follow it are accepted from the region of its
mode. -/
theorem exists_run (file : FileId) (call : Call) :
    ∃ last, call.mode.region.run (call.tokensOnward file) = some last := by
  induction call using Call.onward_induction with
  | stop call stops =>
      have leads := call.tokens_leads file
      rw [stops] at leads
      rwa [tokensOnward_of_stop file stops]
  | next call mode goesOn ih =>
      have leads := call.tokens_leads file
      rw [goesOn] at leads
      rw [tokensOnward_of_next file goesOn, Region.run_append_of_run leads]
      exact ih

end Call

/-- The tokens of a page that begins as text are accepted from text on.  So nothing follows
an invalid token, some tokens stand in bodies only, and the first character token in the
body of a quoted string is the quote that closes it. -/
theorem scan_accepted (bytes : Bytes) (file : FileId) :
    let tokens := (scan .text bytes file).tokens
    (∃ last, Region.text.run tokens = some last) ∧
      (∀ before token after, tokens = before ++ token :: after →
        (token.kind = .invalid → after = []) ∧
        (token.kind = .bodyText →
          ∃ delimiter, Region.text.run before = some (.body delimiter false)) ∧
        (token.kind = .heredocEnd →
          ∃ afterText, Region.text.run before = some (.body .heredoc afterText))) ∧
      ∀ before inner token after quote afterText, tokens = before ++ (inner ++ token :: after) →
        Region.text.run before = some (.body quote afterText) → quote ≠ .heredoc →
        (∀ other ∈ inner, other.kind ≠ .char) → token.kind = .char → quote.closes token := by
  intro tokens
  obtain ⟨last, accepted⟩ : ∃ last, Region.text.run tokens = some last := by
    rw [show tokens = _ from scan_tokens .text bytes file]
    exact (Call.start .text bytes).exists_run file
  refine ⟨⟨last, accepted⟩, ?_, ?_⟩
  · intro before token after split
    rw [split] at accepted
    obtain ⟨region, next, ran, stepped, -⟩ := Region.exists_step_of_run accepted
    refine ⟨Region.eq_nil_of_invalid accepted, fun kind => ?_, fun kind => ?_⟩
    · obtain ⟨delimiter, rfl⟩ := Region.exists_body_of_bodyText stepped kind
      exact ⟨delimiter, ran⟩
    · obtain ⟨afterText, rfl⟩ := Region.exists_body_of_heredocEnd stepped kind
      exact ⟨afterText, ran⟩
  · intro before inner token after quote afterText split ran quoted plain kind
    rw [split, Region.run_append_of_run ran] at accepted
    exact Region.closes_of_char quoted accepted plain kind

end PageScript
