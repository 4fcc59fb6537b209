import PageScript.Grammar

/-!
# Handing tokens over

A scan and its reader work side by side and share a channel that holds a bounded
number of tokens, first in, first out.  `Handover.step` makes one move of one party:

* the scanning side calls a state, sends one token, or leaves when it has nothing
  more to do;
* the reader asks for a token;
* the reader goes away.

A move that has to wait for the other party is refused.  The scanning side waits
while the channel is full, and the reader waits while it is empty and the scanning
side is still there.  Once the reader has gone every send fails, and after a failed
send no further state is called.

A failure of a state reaches the reader once, after every token sent before it.
`Handover.ask` is a reader for whom the scanning side makes only the moves that it
needs to be told something.
-/

namespace PageScript

/-- What a reader is told when it asks for a token. -/
inductive Delivery where
  | token (token : Token)
  | failure (fault : Fault)
  /-- No token is left. -/
  | nothing
  deriving DecidableEq

/-- What the scanning side has to do when its outbox is empty. -/
inductive Stage (State : Type) where
  /-- Call a state. -/
  | calling (state : State)
  /-- Leave, for the run has ended. -/
  | leaving (ending : Ending)
  /-- Nothing: it has left. -/
  | left (ending : Ending)

/-- A scan and its reader, joined by a channel. -/
structure Handover (grammar : Grammar) where
  /-- The capacity that was asked for. -/
  capacity : Nat
  scanner : Scanner
  /-- Tokens of the last call that were not sent yet, in order. -/
  outbox : List Token
  stage : Stage grammar.State
  /-- Tokens that were sent and not received, in order. -/
  channel : List Token
  /-- Whether the reader is still there. -/
  present : Bool
  /-- What the reader was told, latest first. -/
  told : List Delivery

/-- A move of one of the parties. -/
inductive Move where
  | produce
  | receive
  | drop
  deriving DecidableEq

namespace Handover

variable {grammar : Grammar}

/-- Both parties before their first move. -/
def start (grammar : Grammar) (state : grammar.State) (scanner : Scanner) (capacity : Nat) :
    Handover grammar where
  capacity := capacity
  scanner := scanner
  outbox := []
  stage := .calling state
  channel := []
  present := true
  told := []

/-- Number of tokens that the channel holds: the capacity that was asked for, and at
least one. -/
def slots (handover : Handover grammar) : Nat :=
  max 1 handover.capacity

/-- What the scanning side does after a call. -/
def stageAfter {State : Type} : Outcome State → Stage State
  | .next state => .calling state
  | .stop => .leaving .finished
  | .fail fault => .leaving (.failed fault)

/-- Call a state.  What it publishes waits to be sent.  If the reader has gone before
the call, the first token published in it is lost. -/
def call (handover : Handover grammar) (state : grammar.State) : Handover grammar :=
  let (outcome, after) :=
    grammar.call state
      { handover.scanner with published := [], connected := handover.present }
  { handover with
    scanner := after
    outbox := after.tokens
    stage := if after.halted then .leaving .halted else stageAfter outcome }

/-- One move of the scanning side. -/
def produce (handover : Handover grammar) : Option (Handover grammar) :=
  match handover.outbox with
  | token :: outbox =>
      if !handover.present then
        some { handover with outbox := [], stage := .leaving .halted }
      else if handover.channel.length < handover.slots then
        some { handover with outbox, channel := handover.channel ++ [token] }
      else
        none
  | [] =>
      match handover.stage with
      | .calling state => some (handover.call state)
      | .leaving ending => some { handover with stage := .left ending }
      | .left _ => none

/-- What a reader is told when the channel is empty and the scanning side has left. -/
def lastWord (handover : Handover grammar) (ending : Ending) : Delivery :=
  match ending with
  | .failed fault =>
      if handover.told.contains (.failure fault) then .nothing else .failure fault
  | _ => .nothing

/-- The reader asks for a token. -/
def receive (handover : Handover grammar) : Option (Handover grammar) :=
  if !handover.present then
    none
  else
    match handover.channel with
    | token :: channel =>
        some { handover with channel, told := .token token :: handover.told }
    | [] =>
        match handover.stage, handover.outbox with
        | .left ending, [] =>
            some { handover with told := handover.lastWord ending :: handover.told }
        | _, _ => none

/-- One move, if it need not wait. -/
def step (handover : Handover grammar) : Move → Option (Handover grammar)
  | .produce => handover.produce
  | .receive => handover.receive
  | .drop => if handover.present then some { handover with present := false } else none

/-- Moves in turn, as long as none has to wait. -/
def steps (handover : Handover grammar) : List Move → Option (Handover grammar)
  | [] => some handover
  | move :: rest => (handover.step move).bind fun after => after.steps rest

/-- The tokens that the reader received, in order. -/
def received (handover : Handover grammar) : List Token :=
  handover.told.reverse.filterMap fun
    | .token token => some token
    | _ => none

/-- Let the scanning side move until the reader can be told something, in at most
`fuel` moves. -/
def askWithin : Nat → Handover grammar → Option (Delivery × Handover grammar)
  | fuel, handover =>
      match handover.receive with
      | some after => after.told.head?.map fun delivery => (delivery, after)
      | none =>
          match fuel with
          | 0 => none
          | fuel + 1 =>
              match handover.produce with
              | none => none
              | some after => askWithin fuel after

/-- The reader asks and waits.  A grammar that reads at least one byte in every call
but the last answers within the moves that are allowed here. -/
def ask (handover : Handover grammar) : Option (Delivery × Handover grammar) :=
  handover.askWithin (handover.scanner.cursor.left + 4)

/-- Ask for at most `count` tokens, up to the first answer that is no token. -/
def collect : Nat → Handover grammar → List Token × Handover grammar
  | 0, handover => ([], handover)
  | count + 1, handover =>
      match handover.ask with
      | some (.token token, after) =>
          let (tokens, last) := collect count after
          (token :: tokens, last)
      | some (_, after) => ([], after)
      | none => ([], handover)

/-- Whether the reader was told that the run is over. -/
def isFinished (handover : Handover grammar) : Bool :=
  match handover.told with
  | .nothing :: _ => true
  | .failure _ :: _ => true
  | _ => false

/-- The record shown when a reader is inspected. -/
def describe (handover : Handover grammar) : String :=
  s!"Lexer \x7b buffered: {handover.channel.length}, finished: {handover.isFinished} \x7d"

/-- The record shown when a state of a grammar is inspected. -/
def describeState : String :=
  "StateFn(..)"

end Handover

end PageScript
