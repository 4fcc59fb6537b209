import PageScript.Proofs.SectionBodies
import PageScript.Proofs.Stream
import PageScript.Proofs.Tiling

/-!
# Calls of sections

The sections make the calls of the modes, one for one, on scanners that differ in no more than
the width of the last reading.  What a mode says of the string that is open is kept in the
enclosure instead, which is set where a body opens and reset where it ends.  So between two
calls the enclosure tells whether a body is next, and which; and the token that opens the body
is the last one published.
-/

namespace PageScript

/-- The state of the sections when a mode is next. -/
def Mode.entry (mode : Mode) : Section.grammar.State :=
  (mode.toSection, mode.enclosure?)

/-- What a section answers where a mode does. -/
def Outcome.entry : Outcome Mode → Outcome Section.grammar.State
  | .next mode => .next mode.entry
  | .stop => .stop
  | .fail fault => .fail fault

/-- A scanner with another width of its last reading. -/
def Scanner.withWidth (scanner : Scanner) (width : Nat) : Scanner :=
  scanner.withCursor (scanner.cursor.withWidth width)

/-- A run with another width of its last reading. -/
def Run.withWidth (run : Run) (width : Nat) : Run :=
  { run with scanner := run.scanner.withWidth width }

section

variable (file : FileId) (published : List Token) (warnings : List Warning) (call : Call)

/-- The spot at which a call is made. -/
def Call.spot : Spot where
  file := file
  published := published
  warnings := warnings
  enclosure := call.mode.enclosure?
  behind := call.behind
  held := []
  ahead := call.ahead

/-- The spot that the call leaves. -/
theorem Call.follow_spot :
    (call.spot file published warnings).follow call.cut =
      { file
        published := (call.tokens file).reverse ++ published
        warnings := call.warning?.toList ++ warnings
        enclosure := call.cut.next.bind Mode.enclosure?
        behind := call.behind.readOn call.ahead call.size
        held := []
        ahead := call.ahead.drop call.size } := by
  have nothing : ((call.spot file published warnings).warnIf call.cut.unterminated).held = [] := by
    cases call.cut.unterminated <;> rfl
  rw [Spot.follow, Spot.publishAll_eq _ nothing, warning?]
  cases call.cut.unterminated <;> rfl

/-- A fresh scanner has made no reading. -/
theorem Call.ofBytes_eq_withWidth (mode : Mode) (bytes : Bytes) :
    Scanner.ofBytes bytes file = ((start mode bytes).scanner file [] []).withWidth 0 :=
  ofBytes_eq_scanner file mode bytes

/-- A section answers what a mode answers, and leaves the scanner that the mode leaves. -/
theorem Section.call_entry (width : Nat) :
    ∃ rest, grammar.call call.mode.entry ((call.scanner file published warnings).withWidth width) =
      (call.outcome.entry,
        (call.mode.call (call.scanner file published warnings)).2.withWidth rest) := by
  have follows : call.mode.toSection.work.Follows (call.spot file published warnings) call.cut :=
    Work.work_follows call.mode rfl rfl
  obtain ⟨rest, done⟩ := follows width
  have started : (call.spot file published warnings).worker width =
      ⟨(call.scanner file published warnings).withWidth width, call.mode.enclosure?⟩ := rfl
  rw [Call.follow_spot, started] at done
  refine ⟨rest, ?_⟩
  rw [Mode.call_scanner, Call.outcome]
  simp only [grammar, Mode.entry, done]
  cases call.cut.next <;> rfl

/-- The sections run as the modes do. -/
theorem Section.run_entry (width : Nat) :
    ∃ rest, grammar.run call.mode.entry ((call.scanner file published warnings).withWidth width) =
      (Mode.grammar.run call.mode (call.scanner file published warnings)).withWidth rest := by
  induction call using Call.onward_induction generalizing published warnings width with
  | stop call stops =>
      have answer := Mode.call_scanner file published warnings call
      obtain ⟨rest, called⟩ := call_entry file published warnings call width
      have stop : call.outcome = .stop := by rw [Call.outcome, stops]
      rw [answer, stop] at called
      rw [stop] at answer
      have same : Mode.grammar.run call.mode (call.scanner file published warnings) =
          ⟨_, .finished⟩ := Grammar.run_of_stop answer
      rw [same]
      exact ⟨rest, Grammar.run_of_stop called⟩
  | next call mode goesOn ih =>
      have answer := Mode.call_scanner file published warnings call
      obtain ⟨between, called⟩ := call_entry file published warnings call width
      rw [answer] at called
      rw [Call.outcome_eq_next_iff.mpr goesOn] at answer called
      have shorter := Call.onward_ahead_length_lt goesOn
      have progress : ((call.onward mode).scanner file ((call.tokens file).reverse ++ published)
          (call.warning?.toList ++ warnings)).cursor.left <
            (call.scanner file published warnings).cursor.left := by
        simpa [Call.scanner] using shorter
      obtain ⟨rest, later⟩ := ih ((call.tokens file).reverse ++ published)
        (call.warning?.toList ++ warnings) between
      have same : Mode.grammar.run call.mode (call.scanner file published warnings) = _ :=
        Grammar.run_of_next answer rfl progress
      rw [same]
      exact ⟨rest, (Grammar.run_of_next called rfl progress).trans later⟩

end

/-- The token that opens a body is all that is taken from the script before it. -/
theorem Mode.IsScriptCut.opens {bytes : Bytes} {cut : Cut} {enclosure : Enclosure}
    (shape : IsScriptCut bytes cut) (enters : cut.next = some (.body enclosure)) (file : FileId)
    (behind : Bytes) :
    ∃ opener, Lexeme.place file behind bytes cut.lexemes = [opener] ∧ enclosure.Opens opener := by
  cases shape with
  | doubleQuote =>
      cases enters
      exact ⟨_, rfl, rfl, rfl⟩
  | backtick =>
      cases enters
      exact ⟨_, rfl, rfl, rfl⟩
  | @heredoc text label rest written =>
      cases enters
      refine ⟨_, rfl, rfl, ?_⟩
      simpa [Token.after] using written
  | _ => cases enters

/-- No body is entered from text. -/
theorem Mode.IsTextCut.not_enters {bytes : Bytes} {cut : Cut} {enclosure : Enclosure}
    (shape : IsTextCut bytes cut) : cut.next ≠ some (.body enclosure) := by
  cases shape <;> simp

/-- No body is entered from another one. -/
theorem Mode.IsBodyCut.not_enters {bytes : Bytes} {cut : Cut} {inside enclosure : Enclosure}
    (shape : IsBodyCut inside bytes cut) : cut.next ≠ some (.body enclosure) := by
  cases shape <;> simp

/-- A body is entered right behind the token that opens it. -/
def Mode.EnteredBehind (mode : Mode) (published : List Token) : Prop :=
  ∀ enclosure, mode = .body enclosure →
    ∃ opener earlier, published = opener :: earlier ∧ enclosure.Opens opener

theorem Call.enteredBehind {call : Call} {mode : Mode} (goesOn : call.cut.next = some mode)
    (file : FileId) (published : List Token) :
    mode.EnteredBehind ((call.tokens file).reverse ++ published) := by
  rintro enclosure rfl
  obtain ⟨mode, behind, ahead⟩ := call
  cases mode with
  | text => exact absurd goesOn (Mode.cutText_isTextCut ahead).not_enters
  | body inside => exact absurd goesOn (Mode.cutBody_isBodyCut inside ahead).not_enters
  | script =>
      obtain ⟨opener, one, opens⟩ := (Mode.cutScript_isScriptCut ahead).opens goesOn file behind
      have tokens : (Call.mk .script behind ahead).tokens file = [opener] := one
      exact ⟨opener, published, by rw [tokens]; rfl, opens⟩

namespace Section

/-- A section is called where a mode is, behind the token that opened the body it works in. -/
def CalledOn (initial : Mode) (bytes : Bytes) (file : FileId) (state : grammar.State)
    (before : Scanner) : Prop :=
  ∃ (call : Call) (published : List Token) (warnings : List Warning) (width : Nat),
    Mode.grammar.Calls initial (Scanner.ofBytes bytes file) call.mode
        (call.scanner file published warnings) ∧
      state = call.mode.entry ∧ before = (call.scanner file published warnings).withWidth width ∧
      call.mode.EnteredBehind published

variable {initial : Mode} {bytes : Bytes} {file : FileId}

/-- The call that follows is made where a mode is called, too. -/
theorem CalledOn.next {current following : grammar.State} {before after : Scanner}
    (calledOn : CalledOn initial bytes file current before)
    (answer : grammar.call current before = (.next following, after)) :
    CalledOn initial bytes file following after := by
  obtain ⟨call, published, warnings, width, made, rfl, rfl, -⟩ := calledOn
  obtain ⟨rest, called⟩ := call_entry file published warnings call width
  have moved := Mode.call_scanner file published warnings call
  rw [called, moved, Prod.mk.injEq] at answer
  obtain ⟨next, rfl⟩ := answer
  cases goesOn : call.cut.next with
  | none => simp [Call.outcome, goesOn, Outcome.entry] at next
  | some mode =>
      rw [Call.outcome_eq_next_iff.mpr goesOn] at next moved
      cases next
      exact ⟨call.onward mode, _, _, rest, .next made moved rfl, rfl, rfl,
        Call.enteredBehind goesOn file published⟩

theorem calledOn_of_calls (outside : initial.isOutside) {current : grammar.State}
    {before : Scanner}
    (called : grammar.Calls initial.entry (Scanner.ofBytes bytes file) current before) :
    CalledOn initial bytes file current before := by
  refine called.invariant (CalledOn initial bytes file) ?_ ?_
  · have begun : Mode.grammar.Calls initial (Scanner.ofBytes bytes file) initial
        ((Call.start initial bytes).scanner file [] []) := by
      rw [← Call.ofBytes_eq_scanner]
      exact .first
    refine ⟨.start initial bytes, [], [], 0, begun, rfl,
      Call.ofBytes_eq_withWidth file initial bytes, ?_⟩
    rintro enclosure rfl
    contradiction
  · intro current before following after calledOn answer
    exact calledOn.next answer

/-- What is kept from one call to the next. -/
structure Kept (current : Section) (enclosure : Option Enclosure) (before : Scanner) : Prop where
  /-- Nothing is pending: the mark stands where the cursor does. -/
  standing : before.cursor.start = before.cursor.offset
  nothing : before.cursor.pending = .ok []
  /-- No string is open in text and in a script, and only there. -/
  outside_iff : enclosure = none ↔ current = .text ∨ current = .script
  /-- A body is called right behind the token that opened it. -/
  opened : current = .body → ∃ inside opener earlier,
    enclosure = some inside ∧ before.published = opener :: earlier ∧ inside.Opens opener
  labelled : ∀ label, enclosure = some (.heredoc label) → label ≠ []

theorem CalledOn.kept {current : Section} {enclosure : Option Enclosure} {before : Scanner}
    (calledOn : CalledOn initial bytes file (current, enclosure) before) :
    Kept current enclosure before := by
  obtain ⟨⟨mode, behind, ahead⟩, published, warnings, width, -, state, rfl, entered⟩ := calledOn
  obtain ⟨rfl, rfl⟩ := Prod.mk.inj state
  have nothing := Cursor.pending_holding behind [] ahead
  cases mode with
  | text => exact ⟨rfl, nothing, by simp [Mode.toSection, Mode.enclosure?], nofun, nofun⟩
  | script => exact ⟨rfl, nothing, by simp [Mode.toSection, Mode.enclosure?], nofun, nofun⟩
  | body inside =>
      obtain ⟨opener, earlier, rfl, opens⟩ := entered inside rfl
      refine ⟨rfl, nothing, by simp [Mode.toSection, Mode.enclosure?], ?_, ?_⟩
      · exact fun _ => ⟨inside, opener, earlier, rfl, rfl, opens⟩
      · intro label isHeredoc
        obtain rfl := Option.some.inj isHeredoc
        exact opens.2.isName.ne_nil

/-- Beginning outside strings, the sections hand over what is kept.  They are called where the
modes are, and they scan the page. -/
theorem calls_kept (outside : initial.isOutside) (bytes : Bytes) (file : FileId) :
    (∀ current enclosure before,
      grammar.Calls (initial.toSection, none) (Scanner.ofBytes bytes file)
          (current, enclosure) before →
        Kept current enclosure before ∧
          ∃ mode scanner width,
            Mode.grammar.Calls initial (Scanner.ofBytes bytes file) mode scanner ∧
              (current, enclosure) = mode.entry ∧ before = scanner.withWidth width) ∧
      ∃ width, grammar.run (initial.toSection, none) (Scanner.ofBytes bytes file) =
        (scan initial bytes file).withWidth width := by
  have entry : (initial.toSection, none) = initial.entry := by
    cases initial with
    | text => rfl
    | script => rfl
    | body inside => contradiction
  rw [entry]
  constructor
  · intro current enclosure before called
    have calledOn := calledOn_of_calls outside called
    refine ⟨calledOn.kept, ?_⟩
    obtain ⟨call, published, warnings, width, made, state, same, -⟩ := calledOn
    exact ⟨call.mode, _, width, made, state, same⟩
  · have run := run_entry file [] [] (Call.start initial bytes) 0
    rwa [← Call.ofBytes_eq_withWidth, ← Call.ofBytes_eq_scanner] at run

/-- In a heredoc that is never closed the label is kept. -/
theorem calls_kept_heredoc :
    let page := Bytes.ascii "<<<A\nx"
    let inside := Enclosure.heredoc (Bytes.ascii "A")
    Mode.script.isOutside ∧ ∃ before,
      grammar.Calls (.script, none) (Scanner.ofBytes page {}) (.body, some inside) before ∧
        before.published.map (·.kind) = [.heredocStart] ∧ Kept .body (some inside) before := by
  intro page inside
  have opens : (Call.start .script page).cut.next = some (.body inside) := by decide +kernel
  obtain ⟨width, called⟩ := call_entry {} [] [] (Call.start .script page) 0
  have entry : (Call.start .script page).mode.entry = ((.script, none) : grammar.State) := rfl
  rw [← Call.ofBytes_eq_withWidth, Mode.call_scanner, Call.outcome_eq_next_iff.mpr opens,
    entry] at called
  have second : grammar.Calls (.script, none) (Scanner.ofBytes page {}) (.body, some inside) _ :=
    .next .first called rfl
  have openers : List.map Token.kind (((Call.start .script page).tokens {}).reverse ++ []) =
      [.heredocStart] := by decide +kernel
  have outside : Mode.script.isOutside := rfl
  exact ⟨outside, _, second, openers,
    ((calls_kept outside page {}).1 .body (some inside) _ second).1⟩

end Section

end PageScript
