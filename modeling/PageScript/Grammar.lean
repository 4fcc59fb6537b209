import PageScript.Scanner

/-!
# Grammars

A grammar is a state machine that drives a scanner.  A call of a state reads some
of the page, publishes any number of tokens, and names the state to call next, or
stops, or fails.  Tokens published before a failure are not lost by it.

A run repeats calls until one stops or fails.  A call that reads nothing and does
not stop would be repeated for ever, so a run ends there too and says so.
-/

namespace PageScript

/-- What follows a call of a state. -/
inductive Outcome (State : Type) where
  | next (state : State)
  | stop
  | fail (fault : Fault)

/-- A state machine over scanners. -/
structure Grammar where
  State : Type
  call : State → Scanner → Outcome State × Scanner

/-- How a run ended. -/
inductive Ending where
  /-- A state stopped the run. -/
  | finished
  /-- A token was lost because the reader was gone. -/
  | halted
  /-- A state failed. -/
  | failed (fault : Fault)
  /-- A state asked to go on without having read anything. -/
  | stalled
  deriving DecidableEq

/-- The result of a run: the scanner as the last call left it. -/
structure Run where
  scanner : Scanner
  ending : Ending
  deriving DecidableEq

namespace Grammar

/-- Call states, beginning with `state`, until the run ends. -/
def run (grammar : Grammar) (state : grammar.State) (scanner : Scanner) : Run :=
  match grammar.call state scanner with
  | (.stop, after) => ⟨after, .finished⟩
  | (.fail fault, after) => ⟨after, .failed fault⟩
  | (.next following, after) =>
      if after.halted then
        ⟨after, .halted⟩
      else if after.cursor.left < scanner.cursor.left then
        grammar.run following after
      else
        ⟨after, .stalled⟩
  termination_by scanner.cursor.left

end Grammar

namespace Run

/-- The tokens that reached the reader, in order. -/
def tokens (run : Run) : List Token :=
  run.scanner.tokens

/-- The warnings of a run, in order. -/
def warnings (run : Run) : List Warning :=
  run.scanner.warnings.reverse

end Run

end PageScript
