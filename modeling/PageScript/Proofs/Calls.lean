import PageScript.Proofs.CutShape

/-!
# The calls of a scan

A call depends on its mode and on the bytes on either side, and leaves a scanner
between tokens for the next one.  So the calls of a whole scan can be listed without a
scanner: `Call.trace` does, by recursion on the bytes left.  A run of the scanner
publishes the tokens of these calls, gives their warnings, and finishes.
-/

namespace PageScript

/-- A call of a mode, between the bytes read, nearest first, and the bytes left. -/
structure Call where
  mode : Mode
  behind : Bytes
  ahead : Bytes

namespace Call

/-- What the call takes. -/
def cut (call : Call) : Cut :=
  call.mode.cut call.ahead

/-- Number of bytes that the call takes. -/
def size (call : Call) : Nat :=
  Lexeme.totalSize call.cut.lexemes

/-- The tokens that the call publishes. -/
def tokens (file : FileId) (call : Call) : List Token :=
  Lexeme.place file call.behind call.ahead call.cut.lexemes

/-- The warning that the call gives. -/
def warning? (call : Call) : Option Warning :=
  let cursor := Cursor.between call.behind call.ahead
  call.cut.unterminated.map fun construct => construct.warning cursor.line cursor.column

/-- The call of a mode after this one. -/
def onward (call : Call) (mode : Mode) : Call where
  mode := mode
  behind := call.behind.readOn call.ahead call.size
  ahead := call.ahead.drop call.size

theorem cut_fits (call : Call) : call.cut.Fits call.ahead :=
  Mode.cut_fits call.mode call.ahead

/-- A scan that goes on has fewer bytes left. -/
theorem onward_ahead_length_lt {call : Call} {mode : Mode} (goesOn : call.cut.next = some mode) :
    (call.onward mode).ahead.length < call.ahead.length := by
  have progress := call.cut_fits.progress mode goesOn
  have short := call.cut_fits.total_le
  simp only [onward, List.length_drop, size]
  omega

/-- This call and all that follow it, in order. -/
def trace (call : Call) : List Call :=
  match _next : call.cut.next with
  | none => [call]
  | some mode => call :: (call.onward mode).trace
  termination_by call.ahead.length
  decreasing_by exact onward_ahead_length_lt _next

/-- The tokens of this call and of all that follow it. -/
def tokensOnward (file : FileId) (call : Call) : List Token :=
  call.trace.flatMap (·.tokens file)

/-- The warnings of this call and of all that follow it. -/
def warningsOnward (call : Call) : List Warning :=
  call.trace.filterMap (·.warning?)

variable {call : Call} {mode : Mode} (file : FileId)

theorem tokensOnward_of_stop (stops : call.cut.next = none) :
    call.tokensOnward file = call.tokens file := by
  rw [tokensOnward, trace]
  split
  · simp
  · next goesOn => simp [stops] at goesOn

theorem tokensOnward_of_next (goesOn : call.cut.next = some mode) :
    call.tokensOnward file = call.tokens file ++ (call.onward mode).tokensOnward file := by
  rw [tokensOnward, trace]
  split
  · next stops => simp [stops] at goesOn
  · next other same =>
      cases goesOn.symm.trans same
      rfl

theorem warningsOnward_of_stop (stops : call.cut.next = none) :
    call.warningsOnward = call.warning?.toList := by
  rw [warningsOnward, trace]
  split
  · cases found : call.warning? <;> simp [found]
  · next goesOn => simp [stops] at goesOn

theorem warningsOnward_of_next (goesOn : call.cut.next = some mode) :
    call.warningsOnward = call.warning?.toList ++ (call.onward mode).warningsOnward := by
  rw [warningsOnward, trace]
  split
  · next stops => simp [stops] at goesOn
  · next other same =>
      cases goesOn.symm.trans same
      cases found : call.warning? <;> simp [found, warningsOnward]

/-- What holds of a call whenever it holds of the next one holds of every call. -/
theorem onward_induction {motive : Call → Prop}
    (stop : ∀ call : Call, call.cut.next = none → motive call)
    (next : ∀ (call : Call) (mode : Mode), call.cut.next = some mode →
      motive (call.onward mode) → motive call)
    (call : Call) : motive call := by
  fun_induction trace call with
  | case1 call stops => exact stop call stops
  | case2 call mode goesOn ih => exact next call mode goesOn ih

/-- What the call answers. -/
def outcome (call : Call) : Outcome Mode :=
  match call.cut.next with
  | none => .stop
  | some mode => .next mode

theorem outcome_eq_next_iff : call.outcome = .next mode ↔ call.cut.next = some mode := by
  rw [outcome]
  split <;> simp [*]

/-- The page around a call. -/
def page (call : Call) : Bytes :=
  call.behind.reverse ++ call.ahead

@[simp] theorem page_onward (call : Call) (mode : Mode) : (call.onward mode).page = call.page :=
  Bytes.reverse_readOn_append_drop call.behind call.ahead call.size

/-- The scanner on which the call is made. -/
def scanner (file : FileId) (published : List Token) (warnings : List Warning) (call : Call) :
    Scanner :=
  .between file call.behind call.ahead published warnings

/-- The call with which the scan of a page begins. -/
def start (mode : Mode) (bytes : Bytes) : Call where
  mode := mode
  behind := []
  ahead := bytes

theorem ofBytes_eq_scanner (mode : Mode) (bytes : Bytes) :
    Scanner.ofBytes bytes file = (start mode bytes).scanner file [] [] :=
  Scanner.ofBytes_eq_between bytes file

end Call

/-- A call publishes its tokens, gives its warning, and moves past what it takes. -/
theorem Mode.call_scanner (file : FileId) (published : List Token) (warnings : List Warning)
    (call : Call) :
    Mode.call call.mode (call.scanner file published warnings) =
      (call.outcome,
        .between file (call.behind.readOn call.ahead call.size) (call.ahead.drop call.size)
          ((call.tokens file).reverse ++ published) (call.warning?.toList ++ warnings)) := by
  have done (given : List Warning) := publish_between file call.behind call.ahead published
    given call.cut.lexemes call.cut_fits.total_le
  have same : call.mode.cut call.ahead = call.cut := rfl
  rw [Mode.call]
  simp only [Call.scanner, Scanner.between_cursor, Cursor.between_ahead, same, Call.outcome,
    Call.warning?]
  cases call.cut.unterminated with
  | none =>
      simp only [done]
      cases call.cut.next <;> rfl
  | some construct =>
      simp only [Scanner.warn_between, done]
      cases call.cut.next <;> rfl

/-- The next call is made on the scanner that this one leaves. -/
theorem Call.of_call_next {file : FileId} {published : List Token} {warnings : List Warning}
    {call : Call} {mode : Mode} {after : Scanner}
    (answer : Mode.call call.mode (call.scanner file published warnings) = (.next mode, after)) :
    call.cut.next = some mode ∧
      after = (call.onward mode).scanner file ((call.tokens file).reverse ++ published)
        (call.warning?.toList ++ warnings) := by
  rw [Mode.call_scanner, Prod.mk.injEq, outcome_eq_next_iff] at answer
  exact ⟨answer.1, answer.2.symm⟩

namespace Grammar

variable {grammar : Grammar} {state following : grammar.State} {scanner after : Scanner}

theorem run_of_stop (called : grammar.call state scanner = (.stop, after)) :
    grammar.run state scanner = ⟨after, .finished⟩ := by
  rw [run, called]

theorem run_of_next (called : grammar.call state scanner = (.next following, after))
    (connected : after.halted = false) (progress : after.cursor.left < scanner.cursor.left) :
    grammar.run state scanner = grammar.run following after := by
  rw [run, called]
  simp [connected, progress]

end Grammar

namespace Mode

/-- A run from a call on publishes and warns what its calls do, reads to the end, and
finishes. -/
theorem run_scanner (file : FileId) (published : List Token) (warnings : List Warning)
    (call : Call) :
    grammar.run call.mode (call.scanner file published warnings) =
      ⟨.between file call.page.reverse [] ((call.tokensOnward file).reverse ++ published)
        (call.warningsOnward.reverse ++ warnings), .finished⟩ := by
  induction call using Call.onward_induction generalizing published warnings with
  | stop call stops =>
      have called := call_scanner file published warnings call
      have whole : call.size = call.ahead.length := call.cut_fits.exhausts stops
      simp only [Call.outcome, stops, whole, List.drop_length] at called
      refine (Grammar.run_of_stop called).trans ?_
      rw [Call.tokensOnward_of_stop file stops, Call.warningsOnward_of_stop stops]
      cases call.warning? <;> simp [Bytes.readOn, Call.page]
  | next call mode goesOn ih =>
      have called := call_scanner file published warnings call
      rw [Call.outcome_eq_next_iff.mpr goesOn] at called
      refine (Grammar.run_of_next called rfl ?_).trans ?_
      · have shorter := Call.onward_ahead_length_lt goesOn
        simpa [Call.scanner, Call.onward] using shorter
      · refine (ih _ _).trans ?_
        rw [Call.tokensOnward_of_next file goesOn, Call.warningsOnward_of_next goesOn]
        cases call.warning? <;> simp

end Mode

theorem scan_eq (mode : Mode) (bytes : Bytes) (file : FileId) :
    scan mode bytes file =
      ⟨.between file bytes.reverse [] ((Call.start mode bytes).tokensOnward file).reverse
        (Call.start mode bytes).warningsOnward.reverse, .finished⟩ := by
  have run := Mode.run_scanner file [] [] (Call.start mode bytes)
  rw [scan, Call.ofBytes_eq_scanner file mode]
  simpa [Call.page, Call.start] using run

theorem scan_tokens (mode : Mode) (bytes : Bytes) (file : FileId) :
    (scan mode bytes file).tokens = (Call.start mode bytes).tokensOnward file := by
  simp [scan_eq, Run.tokens, Scanner.tokens, Scanner.between]

/-- Behind an open tag at the front the tokens of a page are those of its script. -/
theorem scan_openTag (script : Bytes) (file : FileId) :
    let tag := Bytes.ascii "<?php "
    (scan .text (tag ++ script) file).tokens =
      ⟨.openTag, ⟨0, 6, 1, 1, file⟩, tag⟩ ::
        (Call.mk .script tag.reverse script).tokensOnward file := by
  intro tag
  have cut : (Call.start .text (tag ++ script)).cut =
      { lexemes := [⟨.openTag, 6⟩], next := some .script } := Mode.cutText_openTag script
  rw [scan_tokens, Call.tokensOnward_of_next file (congrArg Cut.next cut), Call.tokens,
    Call.onward, Call.size, cut]
  rfl

theorem scan_warnings (mode : Mode) (bytes : Bytes) (file : FileId) :
    (scan mode bytes file).warnings = (Call.start mode bytes).warningsOnward := by
  simp [scan_eq, Run.warnings, Scanner.between]

theorem scan_ending (mode : Mode) (bytes : Bytes) (file : FileId) :
    (scan mode bytes file).ending = .finished := by
  rw [scan_eq]

end PageScript
