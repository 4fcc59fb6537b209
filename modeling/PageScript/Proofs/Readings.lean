import PageScript.Proofs.HandoverMoves
import PageScript.Proofs.Tiling
import PageScript.Reading

/-!
# Reading is scanning

A reader who asks for one token after the other, and for whom the scanning side moves only
when it has to, receives the tokens of the scan and is then told that there are no more.
Each question needs at most a call, and a send or the leave behind it: a call that does not
end the scan publishes a token.  What the channel can hold makes no difference.
-/

namespace PageScript

/-- A call that another follows publishes a token. -/
theorem Call.tokens_ne_nil {call : Call} {mode : Mode} (goesOn : call.cut.next = some mode)
    (file : FileId) : call.tokens file ≠ [] := by
  have progress := call.cut_fits.progress mode goesOn
  intro none
  rw [tokens] at none
  cases lexemes : call.cut.lexemes with
  | nil => simp [lexemes] at progress
  | cons => simp [lexemes, Lexeme.place] at none

/-- Every token has a byte of its own. -/
theorem Tiles.length_le {file : FileId} {behind covered : Bytes} {tokens : List Token}
    (tiles : Tiles file behind covered tokens) : tokens.length ≤ covered.length := by
  induction tiles with
  | nil => simp
  | cons nonempty _ ih =>
      have size := List.length_pos_of_ne_nil nonempty
      rw [List.length_cons, List.length_append]
      omega

namespace Handover

section

variable {grammar : Grammar} {handover after : Handover grammar} {delivery : Delivery}

/-- The reader is answered at once. -/
theorem askWithin_of_receive {told : List Delivery} (moved : handover.receive = some after)
    (answer : after.told = delivery :: told) (fuel : Nat) :
    handover.askWithin fuel = some (delivery, after) := by
  cases fuel <;> simp [askWithin, moved, answer]

/-- The reader waits for a move of the scanning side. -/
theorem askWithin_of_produce (waits : handover.receive = none)
    (moved : handover.produce = some after) (fuel : Nat) :
    handover.askWithin (fuel + 1) = after.askWithin fuel := by
  rw [askWithin, waits, moved]

end

/-- Between two questions of a reader: what it will be told from then on, and the warnings that
will have been given when it is told that no token is left. -/
inductive Awaits (file : FileId) (handover : Handover Mode.grammar) :
    List Token → List Warning → Prop where
  | calling {call : Call} {warnings : List Warning} :
      handover.present → handover.channel = [] → handover.stage = .calling call.mode →
      { handover.scanner with published := [] } = call.scanner file [] warnings →
      Awaits file handover (handover.outbox ++ call.tokensOnward file)
        (warnings.reverse ++ call.warningsOnward)
  | ended :
      handover.present → handover.channel = [] →
      handover.stage = .leaving .finished ∨ handover.stage = .left .finished →
      handover.scanner.halted = false →
      Awaits file handover handover.outbox handover.scanner.warnings.reverse

/-- What a reader is told within some moves of the scanning side. -/
inductive Answers (file : FileId) (handover : Handover Mode.grammar) (fuel : Nat) :
    List Token → List Warning → Prop where
  | token {token : Token} {tokens : List Token} {warnings : List Warning}
      {after : Handover Mode.grammar} :
      handover.askWithin fuel = some (.token token, after) →
      Awaits file after tokens warnings → Answers file handover fuel (token :: tokens) warnings
  | nothing {after : Handover Mode.grammar} :
      handover.askWithin fuel = some (.nothing, after) → after.scanner.halted = false →
      Answers file handover fuel [] after.scanner.warnings.reverse

section

variable {file : FileId} {handover after : Handover Mode.grammar} {tokens : List Token}
  {warnings : List Warning} {call : Call}

/-- A move more is made for the reader. -/
theorem Answers.of_produce {fuel : Nat} (waits : handover.receive = none)
    (moved : handover.produce = some after) (answers : Answers file after fuel tokens warnings) :
    Answers file handover (fuel + 1) tokens warnings := by
  cases answers with
  | token told awaits => exact .token ((askWithin_of_produce waits moved fuel).trans told) awaits
  | nothing told lossless =>
      exact .nothing ((askWithin_of_produce waits moved fuel).trans told) lossless

/-- A call of a mode between two questions. -/
theorem call_eq (present : handover.present)
    (scanner : { handover.scanner with published := [] } = call.scanner file [] warnings) :
    handover.call call.mode =
      { handover with
        scanner := .between file (call.behind.readOn call.ahead call.size)
          (call.ahead.drop call.size) (call.tokens file).reverse
          (call.warning?.toList ++ warnings)
        outbox := call.tokens file
        stage := stageAfter call.outcome } := by
  have given : { handover.scanner with published := [], connected := handover.present } =
      call.scanner file [] warnings := by
    rw [present]
    exact congrArg (fun scanner : Scanner => { scanner with connected := true }) scanner
  have called := Mode.call_scanner file [] warnings call
  rw [List.append_nil] at called
  have answer : Mode.grammar.call call.mode (call.scanner file [] warnings) = _ := called
  simp only [Handover.call, given, answer]
  simp [Scanner.tokens, Scanner.between]

namespace Awaits

theorem start (options : ScanOptions) (mode : Mode) (bytes : Bytes) :
    Awaits options.file (options.start mode bytes) (scan mode bytes options.file).tokens
      (scan mode bytes options.file).warnings := by
  have scanner : { (options.start mode bytes).scanner with published := [] } =
      (Call.start mode bytes).scanner options.file [] [] :=
    Call.ofBytes_eq_scanner options.file mode bytes
  rw [scan_tokens, scan_warnings]
  exact .calling rfl rfl rfl scanner

/-- A call keeps what the reader will be told. -/
theorem of_call (present : handover.present) (empty : handover.channel = [])
    (scanner : { handover.scanner with published := [] } = call.scanner file [] warnings) :
    Awaits file (handover.call call.mode) (call.tokensOnward file)
      (warnings.reverse ++ call.warningsOnward) := by
  have same : (call.warning?.toList ++ warnings).reverse =
      warnings.reverse ++ call.warning?.toList := by
    cases call.warning? <;> simp
  rw [call_eq present scanner]
  cases goesOn : call.cut.next with
  | none =>
      have stops : call.outcome = .stop := by simp [Call.outcome, goesOn]
      rw [Call.tokensOnward_of_stop file goesOn, Call.warningsOnward_of_stop goesOn, ← same]
      exact .ended present empty (.inl (congrArg stageAfter stops)) rfl
  | some mode =>
      have next : call.outcome = .next mode := Call.outcome_eq_next_iff.mpr goesOn
      rw [Call.tokensOnward_of_next file goesOn, Call.warningsOnward_of_next goesOn,
        ← List.append_assoc, ← same]
      have calls : stageAfter call.outcome = .calling (call.onward mode).mode :=
        congrArg stageAfter next
      exact .calling present empty calls rfl

/-- A token that waits is sent and told. -/
theorem answers_of_waiting (awaits : Awaits file handover tokens warnings)
    (waiting : handover.outbox ≠ []) (fuel : Nat) :
    Answers file handover (fuel + 1) tokens warnings := by
  obtain ⟨token, outbox, waiting⟩ := List.exists_cons_of_ne_nil waiting
  have ⟨present, empty⟩ : handover.present ∧ handover.channel = [] := by
    cases awaits <;> exact ⟨‹_›, ‹_›⟩
  let sent : Handover Mode.grammar := { handover with outbox, channel := [token] }
  let after : Handover Mode.grammar :=
    { handover with outbox, channel := [], told := .token token :: handover.told }
  have waits : handover.receive = none := by simp [receive, present, empty, waiting]
  have sends : handover.produce = some sent := by
    simp [produce, waiting, present, empty, handover.slots_pos, sent]
  have receives : sent.receive = some after := by simp [receive, present, sent, after]
  have told : sent.askWithin fuel = some (.token token, after) :=
    askWithin_of_receive receives rfl fuel
  refine .of_produce waits sends ?_
  cases awaits with
  | @calling call warnings _ _ calls scanner =>
      have onward : Awaits file after (outbox ++ call.tokensOnward file)
          (warnings.reverse ++ call.warningsOnward) :=
        .calling present rfl calls scanner
      rw [waiting]
      exact .token told onward
  | ended _ _ leaves lossless =>
      have onward : Awaits file after outbox handover.scanner.warnings.reverse :=
        .ended present rfl leaves lossless
      rw [waiting]
      exact .token told onward

/-- Behind the last call the reader needs a send or the leave. -/
theorem answers_of_ended (awaits : Awaits file handover tokens warnings)
    (ended : ∀ mode, handover.stage ≠ .calling mode) (fuel : Nat) :
    Answers file handover (fuel + 1) tokens warnings := by
  by_cases none : handover.outbox = []
  case neg => exact awaits.answers_of_waiting none fuel
  cases awaits with
  | calling _ _ calls _ => exact absurd calls (ended _)
  | ended present empty leaves lossless =>
      rw [none]
      let after : Handover Mode.grammar :=
        { handover with stage := .left .finished, told := .nothing :: handover.told }
      rcases leaves with leaving | left
      · let left : Handover Mode.grammar := { handover with stage := .left .finished }
        have waits : handover.receive = Option.none := by
          simp [receive, present, empty, leaving]
        have leaves : handover.produce = some left := by simp [produce, none, leaving, left]
        have receives : left.receive = some after := by
          simp [receive, present, empty, none, lastWord, left, after]
        have spoken : Answers file left fuel [] after.scanner.warnings.reverse :=
          .nothing (askWithin_of_receive receives rfl fuel) lossless
        exact .of_produce waits leaves spoken
      · have receives : handover.receive = some after := by
          simp [receive, present, empty, none, left, lastWord, after]
        have spoken : Answers file handover (fuel + 1) [] after.scanner.warnings.reverse :=
          .nothing (askWithin_of_receive receives rfl _) lossless
        exact spoken

/-- Between two questions the reader needs at most a call and a move behind it: a call that
does not end the scan leaves a token to be sent. -/
theorem answers (awaits : Awaits file handover tokens warnings) (fuel : Nat) :
    Answers file handover (fuel + 2) tokens warnings := by
  by_cases waiting : handover.outbox = []
  case neg => exact awaits.answers_of_waiting waiting _
  cases awaits with
  | ended present empty leaves lossless =>
      refine answers_of_ended (.ended present empty leaves lossless) (fun mode calls => ?_) _
      simp [calls] at leaves
  | @calling call warnings present empty calls scanner =>
      have waits : handover.receive = none := by simp [receive, present, empty, calls]
      have produced : handover.produce = some (handover.call call.mode) := by
        simp [produce, waiting, calls]
      have awaits := of_call present empty scanner
      refine .of_produce waits produced ?_
      rw [waiting, List.nil_append]
      -- The last call may publish nothing.  Then the reader waits for the leave.
      cases goesOn : call.cut.next with
      | none =>
          refine awaits.answers_of_ended (fun mode calls => ?_) fuel
          simp [call_eq present scanner, Call.outcome, goesOn, stageAfter] at calls
      | some mode =>
          refine awaits.answers_of_waiting ?_ fuel
          rw [call_eq present scanner]
          exact Call.tokens_ne_nil goesOn file

end Awaits

end

end Handover

end PageScript
