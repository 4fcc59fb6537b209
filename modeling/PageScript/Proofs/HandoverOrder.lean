import PageScript.Proofs.Emissions
import PageScript.Proofs.HandoverMoves

/-!
# The order of a hand-over

A scan and its reader may take turns in any way, with any capacity between them.  What the
reader has received, what the channel holds and what waits to be sent are together the
tokens of the state machine that runs on its own: `Handover.InOrder`.  From this follows
what the reader can count on.  It receives the tokens in order, with none left out, and
when it is told that there are no more it has received them all.
-/

namespace PageScript

namespace Handover

variable {grammar : Grammar} {handover after : Handover grammar}

/-- No token is left, and the scanning side has left. -/
structure IsDrained (handover : Handover grammar) : Prop where
  channel : handover.channel = []
  outbox : handover.outbox = []
  left : ∃ ending, handover.stage = .left ending

/-- The reader is told something else than a token only when none is left, and that there is
nothing more only when a failure has been reported. -/
structure SpeaksLast (handover : Handover grammar) : Prop where
  drained : ∀ delivery ∈ handover.told, (∀ token, delivery ≠ .token token) → handover.IsDrained
  nothing : .nothing ∈ handover.told →
    ∀ fault, handover.stage = .left (.failed fault) → .failure fault ∈ handover.told

/-- As long as a token is left or awaited only tokens were told. -/
theorem SpeaksLast.of_told_eq (words : handover.SpeaksLast) (notDrained : ¬ handover.IsDrained)
    (same : after.told = handover.told) : after.SpeaksLast := by
  constructor
  · exact fun delivery member noToken =>
      absurd (words.drained delivery (same ▸ member) noToken) notDrained
  · exact fun member => absurd (words.drained _ (same ▸ member) (by simp)) notDrained

theorem SpeaksLast.told_token (words : handover.SpeaksLast) (notDrained : ¬ handover.IsDrained)
    {token : Token} {channel : List Token} :
    { handover with channel, told := .token token :: handover.told }.SpeaksLast := by
  constructor
  · intro delivery member noToken
    rcases List.mem_cons.mp member with rfl | before
    · exact absurd rfl (noToken token)
    · exact absurd (words.drained delivery before noToken) notDrained
  · intro member
    rcases List.mem_cons.mp member with word | before
    · contradiction
    · exact absurd (words.drained _ before (by simp)) notDrained

theorem speaksLast_lastWord {ending : Ending} (empty : handover.channel = [])
    (none : handover.outbox = []) (left : handover.stage = .left ending) :
    { handover with told := handover.lastWord ending :: handover.told }.SpeaksLast := by
  constructor
  · exact fun _ _ _ => ⟨empty, none, ending, left⟩
  · intro _ fault failed
    obtain rfl : ending = .failed fault := Stage.left.inj (left.symm.trans failed)
    exact handover.failure_mem_lastWord fault

/-- While the reader is there: the state machine has come as far on its own as `last`, and
the tokens that it has published by then are the ones received, the ones in the channel and
the ones that wait, in this order. -/
structure InOrder (state : grammar.State) (origin : Scanner) (handover : Handover grammar)
    (last : Scanner) : Prop where
  present : handover.present
  stands : grammar.Stands state origin handover.stage last
  scanner : handover.scanner.fresh = last.fresh
  conserved : handover.received ++ (handover.channel ++ handover.outbox) = last.tokens
  words : handover.SpeaksLast

variable {state : grammar.State} {origin last : Scanner}

theorem inOrder_start (grammar : Grammar) (state : grammar.State) (bytes : Bytes)
    (file : FileId) (capacity : Nat) :
    let origin := Scanner.ofBytes bytes file
    InOrder state origin (start grammar state origin capacity) origin where
  present := rfl
  stands := .calling .first
  scanner := rfl
  conserved := rfl
  words := ⟨by simp [start], by simp [start]⟩

namespace InOrder

theorem send (inOrder : InOrder state origin handover last) {token : Token}
    {outbox : List Token} (waiting : handover.outbox = token :: outbox) :
    InOrder state origin
      { handover with outbox, channel := handover.channel ++ [token] } last := by
  have notDrained : ¬ handover.IsDrained := fun drained => by
    simp [drained.outbox] at waiting
  constructor
  · exact inOrder.present
  · exact inOrder.stands
  · exact inOrder.scanner
  · have conserved := inOrder.conserved
    rw [waiting] at conserved
    simpa [received] using conserved
  · exact inOrder.words.of_told_eq notDrained rfl

theorem leave (inOrder : InOrder state origin handover last) {ending : Ending}
    (leaves : handover.stage = .leaving ending) :
    InOrder state origin { handover with stage := .left ending } last := by
  have notDrained : ¬ handover.IsDrained := by
    rintro ⟨-, -, other, left⟩
    simp [leaves] at left
  have stands := inOrder.stands
  rw [leaves] at stands
  constructor
  · exact inOrder.present
  · cases stands with
    | leaving ends => exact .left ends
  · exact inOrder.scanner
  · exact inOrder.conserved
  · exact inOrder.words.of_told_eq notDrained rfl

/-- The scanner that a call is handed is the one of the state machine on its own, but for
the tokens published before. -/
theorem given_eq (inOrder : InOrder state origin handover last) (live : last.Live) :
    { handover.scanner with published := [], connected := handover.present } = last.fresh := by
  have given : { handover.scanner with published := [], connected := handover.present } =
      { handover.scanner.fresh with connected := true } := by
    rw [inOrder.present]
    rfl
  have connected : { last.fresh with connected := true } = last.fresh := by
    rw [← live.connected]
    rfl
  rw [given, inOrder.scanner, connected]

theorem call (inOrder : InOrder state origin handover last) (lawful : grammar.Lawful)
    (live : origin.Live) {current : grammar.State} (none : handover.outbox = [])
    (calls : handover.stage = .calling current) :
    ∃ next, InOrder state origin (handover.call current) next := by
  have notDrained : ¬ handover.IsDrained := by
    rintro ⟨-, -, other, left⟩
    simp [calls] at left
  have stands := inOrder.stands
  rw [calls] at stands
  cases stands with
  | calling called =>
      have lastLive := called.live lawful live
      have alone := (lawful current).eq_fresh last
      have given := inOrder.given_eq lastLive
      have takenLive := (lawful current).live last.fresh ⟨lastLive.connected, lastLive.lossless⟩
      generalize answer : grammar.call current last.fresh = result at alone takenLive
      obtain ⟨outcome, taken⟩ := result
      have lossless : taken.halted = false := takenLive.lossless
      refine ⟨taken.withEarlier last.published, ?_, ?_, ?_, ?_, ?_⟩
      · exact inOrder.present
      · simp only [Handover.call, given, answer, lossless, Bool.false_eq_true, if_false]
        cases outcome with
        | next following => exact .calling (.next called alone lossless)
        | stop => exact .leaving (.finished called alone)
        | fail fault => exact .leaving (.failed called alone)
      · simp only [Handover.call, given, answer]
        rfl
      · have conserved := inOrder.conserved
        rw [none, List.append_nil] at conserved
        rw [Scanner.tokens_withEarlier]
        simp only [Handover.call, given, answer]
        rw [← List.append_assoc]
        exact congrArg (· ++ taken.tokens) conserved
      · exact inOrder.words.of_told_eq notDrained rfl

/-- Every move of the scanning side keeps the order. -/
theorem produce (inOrder : InOrder state origin handover last) (lawful : grammar.Lawful)
    (live : origin.Live) (moved : handover.Produces after) :
    ∃ next, InOrder state origin after next := by
  cases moved with
  | send _ waiting _ => exact ⟨last, inOrder.send waiting⟩
  | lose gone => simp [inOrder.present] at gone
  | call none calls => exact inOrder.call lawful live none calls
  | leave _ leaves => exact ⟨last, inOrder.leave leaves⟩

/-- So does every answer to the reader. -/
theorem receive (inOrder : InOrder state origin handover last)
    (moved : handover.Receives after) : InOrder state origin after last := by
  cases moved with
  | @token token channel _ held =>
      have notDrained : ¬ handover.IsDrained := fun drained => by
        simp [drained.channel] at held
      constructor
      · exact inOrder.present
      · exact inOrder.stands
      · exact inOrder.scanner
      · have conserved := inOrder.conserved
        rw [held] at conserved
        rw [received_of_token rfl rfl, List.append_assoc]
        exact conserved
      · exact inOrder.words.told_token notDrained
  | @lastWord ending _ empty none left =>
      constructor
      · exact inOrder.present
      · exact inOrder.stands
      · exact inOrder.scanner
      · rw [received_of_lastWord rfl]
        exact inOrder.conserved
      · exact speaksLast_lastWord empty none left

/-- When none is left the reader has received all tokens. -/
theorem ends_of_left (inOrder : InOrder state origin handover last) {ending : Ending}
    (empty : handover.channel = []) (none : handover.outbox = [])
    (left : handover.stage = .left ending) :
    grammar.Ends state origin ending last ∧ handover.received = last.tokens := by
  have stands := inOrder.stands
  have conserved := inOrder.conserved
  rw [left] at stands
  rw [empty, none, List.append_nil, List.append_nil] at conserved
  cases stands with
  | left ends => exact ⟨ends, conserved⟩

theorem of_tells_failure (inOrder : InOrder state origin handover last) {fault : Fault}
    (tells : handover.Tells (.failure fault)) :
    grammar.Ends state origin (.failed fault) last ∧ handover.received = last.tokens ∧
      .failure fault ∉ handover.told := by
  obtain ⟨ending, empty, none, left, word⟩ := tells.exists_left (by simp)
  obtain ⟨rfl, unreported⟩ := eq_of_lastWord_eq_failure word
  obtain ⟨ends, received⟩ := inOrder.ends_of_left empty none left
  exact ⟨ends, received, unreported⟩

theorem of_tells_nothing (inOrder : InOrder state origin handover last)
    (tells : handover.Tells .nothing) :
    ∃ ending, grammar.Ends state origin ending last ∧ handover.received = last.tokens ∧
      (ending = .finished ∨
        ∃ fault, ending = .failed fault ∧ .failure fault ∈ handover.told) := by
  obtain ⟨ending, empty, none, left, word⟩ := tells.exists_left (by simp)
  obtain ⟨ends, received⟩ := inOrder.ends_of_left empty none left
  refine ⟨ending, ends, received, ?_⟩
  cases ends with
  | finished => exact .inl rfl
  | failed => exact .inr ⟨_, rfl, failure_mem_of_lastWord_eq_nothing word⟩

/-- After the last word nothing else is said. -/
theorem tells_nothing (inOrder : InOrder state origin handover last)
    (told : .nothing ∈ handover.told) : handover.Tells .nothing := by
  obtain ⟨empty, none, ending, left⟩ := inOrder.words.drained _ told (by simp)
  have tells := tells_lastWord inOrder.present empty none left
  have word : handover.lastWord ending = .nothing := by
    cases ending with
    | failed fault =>
        have reported := inOrder.words.nothing told fault left
        exact if_pos (by simpa using reported)
    | _ => rfl
  rwa [word] at tells

end InOrder

/-- What holds of a hand-over at any time: the reader is there and the tokens are in order,
or it has gone with what it had received by then. -/
inductive Kept (state : grammar.State) (origin : Scanner) (handover : Handover grammar) :
    Prop where
  | present {last : Scanner} : InOrder state origin handover last → Kept state origin handover
  | gone {tokens : List Token} :
      handover.present = false → grammar.Emits state origin tokens →
      handover.received <+: tokens → Kept state origin handover

theorem Kept.exists_inOrder (kept : Kept state origin handover) (present : handover.present) :
    ∃ last, InOrder state origin handover last := by
  cases kept with
  | present inOrder => exact ⟨_, inOrder⟩
  | gone gone => simp [present] at gone

/-- What the reader has received are the first of the tokens emitted. -/
theorem Kept.exists_emits (kept : Kept state origin handover) (lawful : grammar.Lawful) :
    ∃ tokens, grammar.Emits state origin tokens ∧ handover.received <+: tokens := by
  cases kept with
  | present inOrder =>
      obtain ⟨tokens, emits, within⟩ := inOrder.stands.exists_emits lawful
      rw [← inOrder.conserved] at within
      exact ⟨tokens, emits, (List.prefix_append _ _).trans within⟩
  | gone _ emits within => exact ⟨_, emits, within⟩

/-- Every move keeps the order. -/
theorem Kept.step (kept : Kept state origin handover) (lawful : grammar.Lawful)
    (live : origin.Live) {move : Move} (moved : handover.step move = some after) :
    Kept state origin after := by
  cases move with
  | produce =>
      have moved := produces_of_produce moved
      cases kept with
      | present inOrder =>
          obtain ⟨next, inOrder⟩ := inOrder.produce lawful live moved
          exact .present inOrder
      | gone gone emits within =>
          obtain ⟨present, received⟩ := moved.unnoticed
          exact .gone (present.trans gone) emits (received ▸ within)
  | receive =>
      have moved := receives_of_receive moved
      cases kept with
      | present inOrder => exact .present (inOrder.receive moved)
      | gone gone => simp [moved.present] at gone
  | drop =>
      obtain ⟨-, same⟩ := Option.ite_none_right_eq_some.mp moved
      cases same
      obtain ⟨tokens, emits, within⟩ := kept.exists_emits lawful
      exact .gone rfl emits within

theorem kept_of_steps (lawful : grammar.Lawful) {bytes : Bytes} {file : FileId}
    {capacity : Nat} {moves : List Move}
    (reached : (start grammar state (Scanner.ofBytes bytes file) capacity).steps moves =
      some handover) :
    Kept state (Scanner.ofBytes bytes file) handover :=
  steps_induction (fun _ _ _ kept moved => kept.step lawful ⟨rfl, rfl⟩ moved)
    (.present (inOrder_start grammar state bytes file capacity)) reached

/-- However a page is read, what its reader has received are the first of its tokens. -/
theorem received_prefix_scan {mode : Mode} {bytes : Bytes} {file : FileId} {capacity : Nat}
    {moves : List Move} {handover : Handover Mode.grammar}
    (reached : (start Mode.grammar mode (Scanner.ofBytes bytes file) capacity).steps moves =
      some handover) :
    handover.received <+: (scan mode bytes file).tokens := by
  have kept := kept_of_steps Mode.grammar_lawful reached
  obtain ⟨tokens, emits, within⟩ := kept.exists_emits Mode.grammar_lawful
  refine within.trans (emits.prefix_run Mode.grammar_lawful ?_)
  have finished := scan_ending mode bytes file
  rw [scan] at finished
  simp [finished]

/-- What the reader of a state machine can count on at any time. -/
structure Orderly (state : grammar.State) (origin : Scanner) (capacity : Nat)
    (handover : Handover grammar) : Prop where
  /-- The reader has received the first of the tokens that the state machine emits on its
  own. -/
  received : ∃ tokens, grammar.Emits state origin tokens ∧ handover.received <+: tokens
  /-- While the reader is there, every token published so far was received, or is in the
  channel, or waits to be sent. -/
  conserved : handover.present → ∃ last, grammar.Stands state origin handover.stage last ∧
    handover.received ++ (handover.channel ++ handover.outbox) = last.tokens
  bounded : handover.channel.length ≤ max 1 capacity
  /-- A failure is reported when all tokens before it were received, and once. -/
  failure : ∀ fault, handover.Tells (.failure fault) →
    ∃ last, grammar.Ends state origin (.failed fault) last ∧
      handover.received = last.tokens ∧ .failure fault ∉ handover.told
  /-- The reader is told that no token is left when it has received them all, and a
  failure, if there was one, has been reported. -/
  nothing : handover.Tells .nothing →
    ∃ last ending, grammar.Ends state origin ending last ∧ handover.received = last.tokens ∧
      (ending = .finished ∨ ∃ fault, ending = .failed fault ∧ .failure fault ∈ handover.told)
  /-- It is told so again as often as it asks. -/
  again : handover.present → .nothing ∈ handover.told → handover.Tells .nothing
  /-- After a failed send no state is called any more. -/
  silent : ∀ after moves later, handover.FailsToSend after →
    after.steps moves = some later → later.IsSilent

/-- However a scan and its reader take turns, and whatever the capacity between them, the
tokens are handed over in order. -/
theorem orderly (lawful : grammar.Lawful) (state : grammar.State) (bytes : Bytes)
    (file : FileId) (capacity : Nat) {moves : List Move}
    (reached : (start grammar state (Scanner.ofBytes bytes file) capacity).steps moves =
      some handover) :
    handover.Orderly state (Scanner.ofBytes bytes file) capacity := by
  have kept := kept_of_steps lawful reached
  have fits : handover.capacity = capacity ∧ handover.channel.length ≤ max 1 capacity :=
    steps_induction (fun _ _ _ bounded moved => bounded_step bounded moved)
      ⟨rfl, Nat.zero_le _⟩ reached
  constructor
  case received => exact kept.exists_emits lawful
  case bounded => exact fits.2
  case conserved =>
    intro present
    obtain ⟨last, inOrder⟩ := kept.exists_inOrder present
    exact ⟨last, inOrder.stands, inOrder.conserved⟩
  case failure =>
    intro fault tells
    obtain ⟨last, inOrder⟩ := kept.exists_inOrder tells.present
    exact ⟨last, inOrder.of_tells_failure tells⟩
  case nothing =>
    intro tells
    obtain ⟨last, inOrder⟩ := kept.exists_inOrder tells.present
    exact ⟨last, inOrder.of_tells_nothing tells⟩
  case again =>
    intro present told
    obtain ⟨last, inOrder⟩ := kept.exists_inOrder present
    exact inOrder.tells_nothing told
  case silent =>
    intro after moves later fails reached
    exact steps_induction (fun _ _ _ silent moved => silent.step moved)
      (fails.isSilent lawful) reached

/-- A failure behind one word is reported after it and before the end, though the channel
was asked to hold no token. -/
theorem orderly_failing_words :
    let origin := Scanner.ofBytes (Bytes.ascii "ab !") {}
    let moves : List Move :=
      [.produce, .produce, .receive, .produce, .produce, .receive, .receive]
    ∃ handover, (start Words.grammar () origin 0).steps moves = some handover ∧
      handover.told.take 2 = [.nothing, .failure .raised] ∧
      handover.received.map (·.data) = [Bytes.ascii "ab"] ∧
      handover.Orderly () origin 0 := by
  intro origin moves
  have seen : ((start Words.grammar () origin 0).steps moves).map
      (fun handover => (handover.told.take 2, handover.received.map (·.data))) =
        some ([.nothing, .failure .raised], [Bytes.ascii "ab"]) := by decide +kernel
  obtain ⟨handover, reached, same⟩ := Option.map_eq_some_iff.mp seen
  obtain ⟨told, received⟩ := Prod.mk.inj same
  exact ⟨handover, reached, told, received, orderly Words.grammar_lawful () _ {} 0 reached⟩

end Handover

end PageScript
