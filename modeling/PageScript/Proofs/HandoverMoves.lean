import PageScript.Handover
import PageScript.Proofs.LawfulUse

/-!
# Moves of a hand-over

What each move of a scan and its reader does, whatever the state machine is.  The channel
never holds more than its capacity, no two parties wait for each other, and no state is
called any more after a failed send.
-/

namespace PageScript

namespace Handover

variable {grammar : Grammar} {handover after : Handover grammar}

/-- What one move of the scanning side does. -/
inductive Produces (handover : Handover grammar) : Handover grammar → Prop where
  | send {token : Token} {outbox : List Token} :
      handover.present → handover.outbox = token :: outbox →
      handover.channel.length < handover.slots →
      Produces handover { handover with outbox, channel := handover.channel ++ [token] }
  | lose {token : Token} {outbox : List Token} :
      handover.present = false → handover.outbox = token :: outbox →
      Produces handover { handover with outbox := [], stage := .leaving .halted }
  | call {state : grammar.State} :
      handover.outbox = [] → handover.stage = .calling state →
      Produces handover (handover.call state)
  | leave {ending : Ending} :
      handover.outbox = [] → handover.stage = .leaving ending →
      Produces handover { handover with stage := .left ending }

theorem produces_of_produce (moved : handover.produce = some after) :
    handover.Produces after := by
  unfold produce at moved
  split at moved
  · next token outbox waiting =>
      split at moved
      · next gone =>
          cases moved
          exact .lose (by simpa using gone) waiting
      · next there =>
          split at moved
          · next fits =>
              cases moved
              exact .send (by simpa using there) waiting fits
          · contradiction
  · next none =>
      split at moved
      · next calls =>
          cases moved
          exact .call none calls
      · next leaves =>
          cases moved
          exact .leave none leaves
      · contradiction

/-- The scanning side tells the reader nothing, and does not make it leave. -/
theorem Produces.unnoticed (moved : handover.Produces after) :
    after.present = handover.present ∧ after.received = handover.received := by
  cases moved <;> exact ⟨rfl, rfl⟩

/-- What the reader's asking does. -/
inductive Receives (handover : Handover grammar) : Handover grammar → Prop where
  | token {token : Token} {channel : List Token} :
      handover.present → handover.channel = token :: channel →
      Receives handover { handover with channel, told := .token token :: handover.told }
  | lastWord {ending : Ending} :
      handover.present → handover.channel = [] → handover.outbox = [] →
      handover.stage = .left ending →
      Receives handover { handover with told := handover.lastWord ending :: handover.told }

theorem receives_of_receive (moved : handover.receive = some after) :
    handover.Receives after := by
  unfold receive at moved
  split at moved
  · contradiction
  · next there =>
      have present : handover.present := by simpa using there
      split at moved
      · next held =>
          cases moved
          exact .token present held
      · next empty =>
          split at moved
          · next left none =>
              cases moved
              exact .lastWord present empty none left
          · contradiction

/-- Only a reader who is there receives something. -/
theorem Receives.present (moved : handover.Receives after) : handover.present := by
  cases moved <;> assumption

theorem received_of_token {told : List Delivery} {token : Token}
    (answer : after.told = .token token :: told) (before : handover.told = told) :
    after.received = handover.received ++ [token] := by
  simp [received, answer, before]

/-- A last word is no token. -/
theorem received_of_lastWord {ending : Ending}
    (answer : after.told = handover.lastWord ending :: handover.told) :
    after.received = handover.received := by
  have noToken : ∀ token, handover.lastWord ending ≠ .token token := by
    intro token
    cases ending with
    | failed fault =>
        rw [lastWord]
        split <;> simp
    | _ => simp [lastWord]
  rw [received, answer, List.reverse_cons, List.filterMap_append]
  cases word : handover.lastWord ending with
  | token token => exact absurd word (noToken token)
  | failure fault => simp [received]
  | nothing => simp [received]

/-- A failure has been reported when the last word on it has been spoken. -/
theorem failure_mem_lastWord (handover : Handover grammar) (fault : Fault) :
    .failure fault ∈ handover.lastWord (.failed fault) :: handover.told := by
  rw [lastWord]
  split
  · next reported => exact List.mem_cons_of_mem _ (by simpa using reported)
  · exact List.mem_cons_self

/-- A failure is reported once. -/
theorem eq_of_lastWord_eq_failure {ending : Ending} {fault : Fault}
    (word : handover.lastWord ending = .failure fault) :
    ending = .failed fault ∧ .failure fault ∉ handover.told := by
  unfold lastWord at word
  split at word
  · split at word
    · contradiction
    · next unreported =>
        cases word
        exact ⟨rfl, by simpa using unreported⟩
  · contradiction

/-- When there is nothing more to say a failure has been reported. -/
theorem failure_mem_of_lastWord_eq_nothing {fault : Fault}
    (word : handover.lastWord (.failed fault) = .nothing) : .failure fault ∈ handover.told := by
  have member := handover.failure_mem_lastWord fault
  rw [word] at member
  simpa using member

/-- The reader asks, and is told `delivery`. -/
def Tells (handover : Handover grammar) (delivery : Delivery) : Prop :=
  ∃ after, handover.receive = some after ∧ after.told = delivery :: handover.told

/-- Something else than a token is told when none is left. -/
theorem Tells.exists_left {delivery : Delivery} (tells : handover.Tells delivery)
    (noToken : ∀ token, delivery ≠ .token token) :
    ∃ ending, handover.channel = [] ∧ handover.outbox = [] ∧
      handover.stage = .left ending ∧ handover.lastWord ending = delivery := by
  obtain ⟨after, moved, told⟩ := tells
  cases receives_of_receive moved with
  | token => exact absurd (List.cons.inj told).1.symm (noToken _)
  | @lastWord ending _ empty none left => exact ⟨ending, empty, none, left, (List.cons.inj told).1⟩

theorem Tells.present {delivery : Delivery} (tells : handover.Tells delivery) :
    handover.present := by
  obtain ⟨after, moved, -⟩ := tells
  exact (receives_of_receive moved).present

theorem tells_lastWord {ending : Ending} (present : handover.present)
    (empty : handover.channel = []) (none : handover.outbox = [])
    (left : handover.stage = .left ending) : handover.Tells (handover.lastWord ending) := by
  refine ⟨{ handover with told := handover.lastWord ending :: handover.told }, ?_, rfl⟩
  simp [receive, present, empty, none, left]

/-- What every move keeps is kept by moves in turn. -/
theorem steps_induction {holds : Handover grammar → Prop}
    (step : ∀ before after move, holds before → before.step move = some after → holds after)
    {moves : List Move} (begun : holds handover) (reached : handover.steps moves = some after) :
    holds after := by
  induction moves generalizing handover with
  | nil =>
      cases reached
      exact begun
  | cons move moves ih =>
      obtain ⟨middle, moved, reached⟩ := Option.bind_eq_some_iff.mp reached
      exact ih (step _ _ _ begun moved) reached

/-- The channel never holds more than its capacity. -/
theorem bounded_step {capacity : Nat} {move : Move}
    (bounded : handover.capacity = capacity ∧ handover.channel.length ≤ max 1 capacity)
    (moved : handover.step move = some after) :
    after.capacity = capacity ∧ after.channel.length ≤ max 1 capacity := by
  obtain ⟨asked, fits⟩ := bounded
  cases move with
  | produce =>
      cases produces_of_produce moved with
      | send _ _ free =>
          refine ⟨asked, ?_⟩
          rw [slots, asked] at free
          rw [List.length_append]
          exact free
      | lose => exact ⟨asked, fits⟩
      | call => exact ⟨asked, fits⟩
      | leave => exact ⟨asked, fits⟩
  | receive =>
      cases receives_of_receive moved with
      | token _ held =>
          rw [held, List.length_cons] at fits
          exact ⟨asked, Nat.le_of_succ_le fits⟩
      | lastWord => exact ⟨asked, fits⟩
  | drop =>
      obtain ⟨-, same⟩ := Option.ite_none_right_eq_some.mp moved
      cases same
      exact ⟨asked, fits⟩

theorem slots_pos (handover : Handover grammar) : 0 < handover.slots :=
  Nat.lt_of_lt_of_le Nat.one_pos (Nat.le_max_left 1 handover.capacity)

/-- The two parties never wait for each other: as long as the reader is there or the
scanning side has something left to do, one of them can move. -/
theorem isSome_produce_or_receive (handover : Handover grammar)
    (goesOn : handover.present ∨ ∀ ending, handover.stage ≠ .left ending) :
    handover.produce.isSome ∨ handover.receive.isSome := by
  cases waiting : handover.outbox with
  | nil =>
      cases stage : handover.stage with
      | calling state => exact .inl (by simp [produce, waiting, stage])
      | leaving ending => exact .inl (by simp [produce, waiting, stage])
      | left ending =>
          have present := goesOn.resolve_right fun other => other ending stage
          exact .inr (by cases held : handover.channel <;>
            simp [receive, present, held, stage, waiting])
  | cons token outbox =>
      cases present : handover.present with
      | false => exact .inl (by simp [produce, waiting, present])
      | true =>
          cases held : handover.channel with
          | nil => exact .inl (by simp [produce, waiting, present, held, slots_pos])
          | cons next channel => exact .inr (by simp [receive, present, held])

/-- No state is called next. -/
def IsSilent (handover : Handover grammar) : Prop :=
  ∀ state, handover.stage ≠ .calling state

/-- Once no state is called next, none is called any more. -/
theorem IsSilent.step {move : Move} (silent : handover.IsSilent)
    (moved : handover.step move = some after) : after.IsSilent := by
  cases move with
  | produce =>
      cases produces_of_produce moved with
      | send => exact silent
      | lose => exact fun _ calls => by simp at calls
      | call _ calls => exact absurd calls (silent _)
      | leave => exact fun _ calls => by simp at calls
  | receive =>
      cases receives_of_receive moved with
      | token => exact silent
      | lastWord => exact silent
  | drop =>
      obtain ⟨-, same⟩ := Option.ite_none_right_eq_some.mp moved
      cases same
      exact silent

/-- Behind a call in which a token was lost no state is called. -/
theorem isSilent_call {state : grammar.State} (halted : (handover.call state).scanner.halted) :
    (handover.call state).IsSilent := by
  intro following calls
  simp only [Handover.call] at calls halted
  rw [if_pos halted] at calls
  contradiction

/-- A move of the scanning side in which a send fails.  The reader has gone, and a token
still waits or is published by the call that is made. -/
structure FailsToSend (handover after : Handover grammar) : Prop where
  moved : handover.produce = some after
  gone : handover.present = false
  lost : handover.outbox ≠ [] ∨ ∃ state, handover.stage = .calling state ∧
    (grammar.call state
      { handover.scanner with published := [], connected := true }).2.tokens ≠ []

theorem FailsToSend.isSilent (fails : handover.FailsToSend after) (lawful : grammar.Lawful) :
    after.IsSilent := by
  cases produces_of_produce fails.moved with
  | send there => simp [fails.gone] at there
  | lose => exact fun _ calls => by simp at calls
  | leave => exact fun _ calls => by simp at calls
  | @call state none calls =>
      rcases fails.lost with waiting | ⟨other, same, published⟩
      · exact absurd none waiting
      · obtain rfl : state = other := Stage.calling.inj (calls.symm.trans same)
        exact isSilent_call <| (lawful state).halts
          { handover.scanner with published := [], connected := handover.present } fails.gone
          fun nothing => published (by rw [Scanner.tokens, nothing]; rfl)

end Handover

end PageScript
