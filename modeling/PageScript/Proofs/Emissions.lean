import PageScript.Handover
import PageScript.Proofs.LawfulUse
import PageScript.Proofs.Tiling

/-!
# What a state machine emits

A state machine that runs on its own publishes its tokens one call after the other:
`Grammar.Calls` are its calls, `Grammar.Emits` what is published up to one of them, and
`Grammar.Ends` how the last one leaves it.  A run that does not stall makes all of them.
-/

namespace PageScript

namespace Grammar

variable {grammar : Grammar} {state current : grammar.State} {origin before last : Scanner}
  {ending : Ending}

/-- How a state machine ends that runs on its own, and the scanner that is left. -/
inductive Ends (grammar : Grammar) (state : grammar.State) (origin : Scanner) :
    Ending → Scanner → Prop where
  | finished {current : grammar.State} {before last : Scanner} :
      grammar.Calls state origin current before →
      grammar.call current before = (.stop, last) → Ends grammar state origin .finished last
  | failed {current : grammar.State} {before last : Scanner} {fault : Fault} :
      grammar.Calls state origin current before →
      grammar.call current before = (.fail fault, last) →
      Ends grammar state origin (.failed fault) last

/-- The tokens of a state machine that runs on its own, up to one of its calls. -/
def Emits (grammar : Grammar) (state : grammar.State) (origin : Scanner)
    (tokens : List Token) : Prop :=
  ∃ current before, grammar.Calls state origin current before ∧
    tokens = (grammar.call current before).2.tokens

theorem Ends.emits (ends : grammar.Ends state origin ending last) :
    grammar.Emits state origin last.tokens := by
  cases ends with
  | finished called answer => exact ⟨_, _, called, by rw [answer]⟩
  | failed called answer => exact ⟨_, _, called, by rw [answer]⟩

/-- On its own a lawful state machine loses no token. -/
theorem Calls.live (called : grammar.Calls state origin current before)
    (lawful : grammar.Lawful) (live : origin.Live) : before.Live := by
  refine called.invariant (fun _ before => before.Live) live ?_
  intro current before following after live answer
  have kept := (lawful current).live before live
  rwa [answer] at kept

/-- A lawful call publishes behind what was published before. -/
theorem Lawful.tokens_prefix (lawful : grammar.Lawful) (state : grammar.State)
    (scanner : Scanner) : scanner.tokens <+: (grammar.call state scanner).2.tokens := by
  rw [(lawful state).eq_fresh scanner, Scanner.tokens_withEarlier]
  exact List.prefix_append _ _

/-- Every run begins with the tokens of its first call. -/
theorem Lawful.call_prefix_run (lawful : grammar.Lawful) (state : grammar.State)
    (scanner : Scanner) :
    (grammar.call state scanner).2.tokens <+: (grammar.run state scanner).tokens := by
  fun_induction run grammar state scanner with
  | case1 state scanner after answer => rw [answer]; exact List.prefix_rfl
  | case2 state scanner fault after answer => rw [answer]; exact List.prefix_rfl
  | case3 state scanner following after answer => rw [answer]; exact List.prefix_rfl
  | case4 state scanner following after answer _ _ ih =>
      rw [answer]
      exact (lawful.tokens_prefix following after).trans ih
  | case5 state scanner following after answer => rw [answer]; exact List.prefix_rfl

/-- A run that does not stall makes all calls of its state machine. -/
theorem Calls.run_eq (called : grammar.Calls state origin current before)
    (moving : (grammar.run state origin).ending ≠ .stalled) :
    grammar.run state origin = grammar.run current before := by
  induction called with
  | first => rfl
  | @next current following before after _ answer lossless ih =>
      rw [ih]
      refine run_of_next answer lossless ?_
      by_contra still
      rw [ih, run, answer] at moving
      simp [lossless, still] at moving

/-- It publishes all tokens that the state machine emits. -/
theorem Emits.prefix_run {tokens : List Token} (emits : grammar.Emits state origin tokens)
    (lawful : grammar.Lawful) (moving : (grammar.run state origin).ending ≠ .stalled) :
    tokens <+: (grammar.run state origin).tokens := by
  obtain ⟨current, before, called, rfl⟩ := emits
  rw [called.run_eq moving]
  exact lawful.call_prefix_run current before

/-- Where a state machine stands that runs on its own. -/
inductive Stands (state : grammar.State) (origin : Scanner) :
    Stage grammar.State → Scanner → Prop where
  | calling {current : grammar.State} {before : Scanner} :
      grammar.Calls state origin current before → Stands state origin (.calling current) before
  | leaving {ending : Ending} {last : Scanner} :
      grammar.Ends state origin ending last → Stands state origin (.leaving ending) last
  | left {ending : Ending} {last : Scanner} :
      grammar.Ends state origin ending last → Stands state origin (.left ending) last

/-- What it has published by then are tokens that it emits. -/
theorem Stands.exists_emits {stage : Stage grammar.State}
    (stands : Stands state origin stage last) (lawful : grammar.Lawful) :
    ∃ tokens, grammar.Emits state origin tokens ∧ last.tokens <+: tokens := by
  cases stands with
  | calling called => exact ⟨_, ⟨_, _, called, rfl⟩, lawful.tokens_prefix _ _⟩
  | leaving ends => exact ⟨_, ends.emits, List.prefix_rfl⟩
  | left ends => exact ⟨_, ends.emits, List.prefix_rfl⟩

end Grammar

end PageScript
