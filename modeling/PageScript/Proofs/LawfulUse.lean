import PageScript.Grammar.Words
import PageScript.Mode

/-!
# Lawful use of a scanner

A grammar is handed a whole scanner, but what it can do with one is limited.  It moves the
cursor, gives warnings, and publishes tokens; whether the reader is still there and what was
published before are not its own.  `Scanner.Lawful` says what follows from that, and every
`Routine` over the operations of a scanner has it.
-/

namespace PageScript

namespace Scanner

/-- The scanner as it is if further tokens were published before all others. -/
def withEarlier (scanner : Scanner) (earlier : List Token) : Scanner :=
  { scanner with published := scanner.published ++ earlier }

/-- The scanner as it is if nothing was published. -/
def fresh (scanner : Scanner) : Scanner :=
  { scanner with published := [] }

/-- The reader is there, and no token was lost. -/
structure Live (scanner : Scanner) : Prop where
  connected : scanner.connected
  lossless : scanner.halted = false

theorem tokens_withEarlier (scanner : Scanner) (earlier : List Token) :
    (scanner.withEarlier earlier).tokens = earlier.reverse ++ scanner.tokens :=
  List.reverse_append

theorem Live.withCursor {scanner : Scanner} (live : scanner.Live) (cursor : Cursor) :
    (scanner.withCursor cursor).Live :=
  ⟨live.connected, live.lossless⟩

theorem Live.warn {scanner : Scanner} (live : scanner.Live) (warning : Warning) :
    (scanner.warn warning).Live :=
  ⟨live.connected, live.lossless⟩

/-- The pending text as a token, with the cursor behind it. -/
def cutPending (scanner : Scanner) (kind : Kind) : Except Fault (Token × Cursor) := do
  let data ← scanner.cursor.pending
  let (span, cursor) ← scanner.cursor.takeSpan scanner.file
  return (⟨kind, span, data⟩, cursor)

/-- Hand a token to the reader, or lose it. -/
def put (scanner : Scanner) (token : Token) (cursor : Cursor) : Option Token × Scanner :=
  if scanner.connected then
    (some token, { scanner with cursor, published := token :: scanner.published })
  else
    (none, { scanner with cursor, halted := true })

theorem emit_eq (scanner : Scanner) (kind : Kind) :
    scanner.emit kind =
      (scanner.cutPending kind).map fun (token, cursor) => scanner.put token cursor := by
  unfold emit cutPending
  cases scanner.cursor.pending with
  | error fault => rfl
  | ok data =>
      cases scanner.cursor.takeSpan scanner.file with
      | error fault => rfl
      | ok taken =>
          by_cases present : scanner.connected
          · simp [put, present, bind, Except.bind, pure, Except.pure, Except.map]
          · simp [put, present, bind, Except.bind, pure, Except.pure, Except.map]

theorem exists_of_emit {scanner after : Scanner} {kind : Kind} {reached : Option Token}
    (emitted : scanner.emit kind = .ok (reached, after)) :
    ∃ token cursor, scanner.put token cursor = (reached, after) := by
  rw [emit_eq] at emitted
  cases cut : scanner.cutPending kind with
  | error fault =>
      rw [cut] at emitted
      contradiction
  | ok taken =>
      rw [cut] at emitted
      exact ⟨taken.1, taken.2, Except.ok.inj emitted⟩

variable {scanner after : Scanner} {kind : Kind} {reached : Option Token}

/-- A token is lost only if the reader is gone. -/
theorem Live.emit (live : scanner.Live) (emitted : scanner.emit kind = .ok (reached, after)) :
    after.Live := by
  obtain ⟨token, cursor, same⟩ := exists_of_emit emitted
  rw [put, if_pos live.connected] at same
  cases same
  exact ⟨live.connected, live.lossless⟩

/-- Without a reader the token is lost, and the scanner halts. -/
theorem emit_gone (gone : scanner.connected = false)
    (emitted : scanner.emit kind = .ok (reached, after)) : after.halted := by
  obtain ⟨token, cursor, same⟩ := exists_of_emit emitted
  rw [put, if_neg (by simp [gone])] at same
  cases same
  rfl

/-- Publishing does not undo a halt. -/
theorem emit_halted (halted : scanner.halted)
    (emitted : scanner.emit kind = .ok (reached, after)) : after.halted := by
  cases present : scanner.connected with
  | false => exact emit_gone present emitted
  | true =>
      obtain ⟨token, cursor, same⟩ := exists_of_emit emitted
      rw [put, if_pos present] at same
      cases same
      exact halted

/-- Whether there is anything to publish does not depend on the reader. -/
theorem emit_connected {fault : Fault} (refused : scanner.emit kind = .error fault) :
    { scanner with connected := true }.emit kind = .error fault := by
  rw [emit_eq] at refused ⊢
  have same : { scanner with connected := true }.cutPending kind = scanner.cutPending kind := rfl
  rw [same]
  cases cut : scanner.cutPending kind with
  | error other =>
      rw [cut] at refused
      exact refused
  | ok taken =>
      rw [cut] at refused
      contradiction

theorem put_withEarlier (scanner : Scanner) (earlier : List Token) (token : Token)
    (cursor : Cursor) :
    (scanner.withEarlier earlier).put token cursor =
      ((scanner.put token cursor).1, (scanner.put token cursor).2.withEarlier earlier) := by
  by_cases present : scanner.connected
  · rw [put, put, if_pos present]
    exact if_pos present
  · rw [put, put, if_neg present]
    exact if_neg present

/-- Tokens published earlier make no difference to publishing. -/
theorem emit_withEarlier (scanner : Scanner) (earlier : List Token) (kind : Kind) :
    (scanner.withEarlier earlier).emit kind =
      (scanner.emit kind).map fun answer => (answer.1, answer.2.withEarlier earlier) := by
  have same : (scanner.withEarlier earlier).cutPending kind = scanner.cutPending kind := rfl
  rw [emit_eq, emit_eq, same]
  cases scanner.cutPending kind with
  | error fault => rfl
  | ok taken => exact congrArg Except.ok (scanner.put_withEarlier earlier taken.1 taken.2)

/-- What every use of a scanner keeps to.  It loses no token while the reader is there, it
neither reads nor changes what was published before, and when the reader is gone it halts if
it would publish a token. -/
structure Lawful {Answer : Type} (use : Scanner → Answer × Scanner) : Prop where
  live : ∀ scanner : Scanner, scanner.Live → (use scanner).2.Live
  published : ∀ (scanner : Scanner) (earlier : List Token),
    use (scanner.withEarlier earlier) =
      ((use scanner).1, (use scanner).2.withEarlier earlier)
  halts : ∀ scanner : Scanner, scanner.connected = false →
    (use { scanner with connected := true }).2.published ≠ scanner.published →
    (use scanner).2.halted

/-- A use of a scanner, from the tokens that it publishes itself. -/
theorem Lawful.eq_fresh {Answer : Type} {use : Scanner → Answer × Scanner} (lawful : Lawful use)
    (scanner : Scanner) :
    use scanner = ((use scanner.fresh).1, (use scanner.fresh).2.withEarlier scanner.published) :=
  lawful.published scanner.fresh scanner.published

end Scanner

/-- A grammar that keeps to what its scanner allows. -/
def Grammar.Lawful (grammar : Grammar) : Prop :=
  ∀ state, Scanner.Lawful (grammar.call state)

/-- A call written with the operations of a scanner. -/
inductive Routine (State : Type) where
  | answer (outcome : Outcome State)
  /-- Look at the cursor, and at whether a token was lost. -/
  | look (later : Cursor → Bool → Routine State)
  | move (cursor : Cursor) (later : Routine State)
  | warn (warning : Warning) (later : Routine State)
  /-- Publish the pending text.  The call fails if there is none to publish. -/
  | emit (kind : Kind) (later : Routine State)

namespace Routine

variable {State : Type}

/-- Carry out a call. -/
def run : Routine State → Scanner → Outcome State × Scanner
  | .answer outcome, scanner => (outcome, scanner)
  | .look later, scanner => (later scanner.cursor scanner.halted).run scanner
  | .move cursor later, scanner => later.run (scanner.withCursor cursor)
  | .warn warning later, scanner => later.run (scanner.warn warning)
  | .emit kind later, scanner =>
      match scanner.emit kind with
      | .error fault => (.fail fault, scanner)
      | .ok (_, after) => later.run after

/-- A call does not undo a halt. -/
theorem run_halted (routine : Routine State) {scanner : Scanner} (halted : scanner.halted) :
    (routine.run scanner).2.halted := by
  induction routine generalizing scanner with
  | answer outcome => exact halted
  | look later ih => exact ih _ _ halted
  | move cursor later ih => exact ih halted
  | warn warning later ih => exact ih halted
  | emit kind later ih =>
      rw [run]
      split
      · exact halted
      · next emitted => exact ih (Scanner.emit_halted halted emitted)

/-- Calls that only use the operations of a scanner are lawful. -/
theorem run_lawful (routine : Routine State) : Scanner.Lawful routine.run := by
  induction routine with
  | answer outcome =>
      exact ⟨fun _ live => live, fun _ _ => rfl, fun _ _ published => absurd rfl published⟩
  | look later ih =>
      exact ⟨fun scanner => (ih scanner.cursor scanner.halted).live scanner,
        fun scanner => (ih scanner.cursor scanner.halted).published scanner,
        fun scanner => (ih scanner.cursor scanner.halted).halts scanner⟩
  | move cursor later ih =>
      exact ⟨fun scanner live => ih.live _ (live.withCursor cursor),
        fun scanner => ih.published (scanner.withCursor cursor),
        fun scanner => ih.halts (scanner.withCursor cursor)⟩
  | warn warning later ih =>
      exact ⟨fun scanner live => ih.live _ (live.warn warning),
        fun scanner => ih.published (scanner.warn warning),
        fun scanner => ih.halts (scanner.warn warning)⟩
  | emit kind later ih =>
      constructor
      · intro scanner live
        rw [run]
        split
        · exact live
        · next emitted => exact ih.live _ (live.emit emitted)
      · intro scanner earlier
        rw [run, run, Scanner.emit_withEarlier]
        cases scanner.emit kind with
        | error fault => rfl
        | ok answer => exact ih.published answer.2 earlier
      · intro scanner gone published
        rw [run]
        split
        · next refused =>
            rw [run, Scanner.emit_connected refused] at published
            exact absurd rfl published
        · next emitted => exact later.run_halted (Scanner.emit_gone gone emitted)

/-- Publish lexemes one after the other. -/
def publishAll (later : Routine State) : List Lexeme → Routine State
  | [] => later
  | lexeme :: rest =>
      .look fun cursor _ =>
        .move (cursor.skip lexeme.size) (.emit lexeme.kind (publishAll later rest))

theorem run_publishAll (later : Routine State) (lexemes : List Lexeme) (scanner : Scanner) :
    (publishAll later lexemes).run scanner =
      match Mode.publish lexemes scanner with
      | (some fault, after) => (.fail fault, after)
      | (none, after) => later.run after := by
  induction lexemes generalizing scanner with
  | nil => rfl
  | cons lexeme rest ih =>
      simp only [publishAll, run, Mode.publish]
      cases (scanner.withCursor (scanner.cursor.skip lexeme.size)).emit lexeme.kind with
      | error fault => rfl
      | ok answer => exact ih answer.2

/-- The call of a mode. -/
def ofMode (mode : Mode) : Routine Mode :=
  .look fun cursor _ =>
    let cut := mode.cut cursor.ahead
    let published := publishAll (.answer (cut.next.elim .stop .next)) cut.lexemes
    match cut.unterminated with
    | none => published
    | some construct => .warn (construct.warning cursor.line cursor.column) published

theorem run_ofMode (mode : Mode) (scanner : Scanner) :
    (ofMode mode).run scanner = mode.call scanner := by
  simp only [ofMode, run, Mode.call]
  generalize mode.cut scanner.cursor.ahead = cut
  cases cut.unterminated with
  | none =>
      rw [run_publishAll]
      cases cut.next <;> rfl
  | some construct =>
      rw [run, run_publishAll]
      cases cut.next <;> rfl

/-- The call of the grammar of words. -/
def words : Routine Unit :=
  .look fun cursor _ =>
    match (cursor.acceptWhile (· == ' ')).ignore with
    | .error fault => .answer (.fail fault)
    | .ok cursor =>
        let word := cursor.acceptWhile Words.isLetter
        .move word <|
          match word.pending, word.next with
          | .error fault, _ => .answer (.fail fault)
          | .ok (_ :: _), _ => .emit .name (.answer (.next ()))
          | .ok [], (none, cursor) => .move cursor (.answer .stop)
          | .ok [], (some char, cursor) =>
              .move cursor <|
                if char = '!' then .answer (.fail .raised)
                else .emit .invalid (.answer (.next ()))

theorem run_words (state : Unit) (scanner : Scanner) :
    words.run scanner = Words.call state scanner := by
  rw [words, run, Words.call]
  cases (scanner.cursor.acceptWhile (· == ' ')).ignore with
  | error fault => rfl
  | ok cursor =>
      simp only [run]
      have placed : (scanner.withCursor (cursor.acceptWhile Words.isLetter)).cursor =
          cursor.acceptWhile Words.isLetter := rfl
      rw [placed]
      generalize cursor.acceptWhile Words.isLetter = word
      rcases word.pending with fault | (_ | ⟨byte, rest⟩)
      · rfl
      · simp only [Words.other, Scanner.withCursor]
        rcases word.next with ⟨_ | char, after⟩
        · rfl
        · simp only
          split <;> rfl
      · rfl

end Routine

/-- A grammar is lawful if every call of it can be written with the operations of a
scanner. -/
theorem Grammar.lawful_of_routine {grammar : Grammar}
    (routine : grammar.State → Routine grammar.State)
    (written : ∀ state scanner, (routine state).run scanner = grammar.call state scanner) :
    grammar.Lawful := by
  intro state
  have same : (routine state).run = grammar.call state := funext (written state)
  rw [← same]
  exact (routine state).run_lawful

/-- The modes keep to what a scanner allows. -/
theorem Mode.grammar_lawful : grammar.Lawful :=
  Grammar.lawful_of_routine Routine.ofMode Routine.run_ofMode

/-- So does the grammar of words. -/
theorem Words.grammar_lawful : grammar.Lawful :=
  Grammar.lawful_of_routine (fun _ => Routine.words) Routine.run_words

end PageScript
