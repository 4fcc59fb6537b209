import Mathlib.Data.List.TakeWhile
import PageScript.Proofs.LiteralItems

/-!
# Pulling literals

Literals are pulled from a stream of tokens one after the other, each from where the one
before has left the stream.  A body is decided by the first token that cannot stand inside it,
and that token is the last one taken.  So whoever stops pulling finds every later token still
in the stream, and would have pulled the same literals had other tokens followed.

Only a literal that runs out of tokens is decided by there being no more of them.
-/

namespace PageScript

/-- Tokens all stand inside a body, or one of them is the first that does not. -/
theorem Closer.exists_first_outside (closer : Closer) (tokens : List Token) :
    (∀ token ∈ tokens, closer.isInside token) ∨
      ∃ inside last rest, tokens = inside ++ last :: rest ∧
        (∀ token ∈ inside, closer.isInside token) ∧ ¬ closer.isInside last := by
  induction tokens with
  | nil => exact .inl (by simp)
  | cons token tokens ih =>
      by_cases isInside : closer.isInside token
      · rcases ih with all | ⟨inside, last, rest, rfl, all, outside⟩
        · exact .inl (List.forall_mem_cons.mpr ⟨isInside, all⟩)
        · exact .inr ⟨token :: inside, last, rest, rfl,
            List.forall_mem_cons.mpr ⟨isInside, all⟩, outside⟩
      · exact .inr ⟨[], token, tokens, rfl, by simp, isInside⟩

namespace Literal

variable {opening : Opening} {token : Token} {tokens rest : List Token} {item : Item}

/-- The tokens inside a body and the first one that is not decide what it is compiled to. -/
theorem compileBody_eq (closer : Closer) (opener : Token) (tokens : List Token) :
    compileBody closer opener tokens =
      match tokens.dropWhile closer.isInside with
      | [] => (.error (.unexpectedEnd closer.literal opener.span), [])
      | last :: rest =>
          (if closer.ends last then
              .ok (.concat
                (((tokens.takeWhile closer.isInside).filter Token.isPart).map Token.part)
                (cover opener last))
            else .error (.unexpectedToken ⟨last.kind, last.text, last.span⟩), rest) := by
  rcases closer.exists_first_outside tokens with all | ⟨inside, last, rest, rfl, all, outside⟩
  · rw [List.dropWhile_eq_nil_iff.mpr all]
    exact compileBody_of_all_inside opener all
  · rw [List.dropWhile_append_of_pos all, List.takeWhile_append_of_pos all,
      List.dropWhile_cons_of_neg outside, List.takeWhile_cons_of_neg outside, List.append_nil]
    exact compileBody_append opener all outside rest

/-- An item reports that the stream has ended in a literal. -/
def RanOut (item : Item) : Prop :=
  ∃ literal span, item = .error (.unexpectedEnd literal span)

/-- What a token opens is compiled from the tokens that are taken.  Only if it runs out of
tokens do others in their place matter. -/
theorem exists_taken_of_compile (compiled : compile opening token tokens = (item, rest)) :
    ∃ taken, tokens = taken ++ rest ∧
      (¬ RanOut item → ∀ more, compile opening token (taken ++ more) = (item, more)) := by
  cases opening with
  | single =>
      cases compiled
      exact ⟨[], rfl, fun _ _ => rfl⟩
  | unterminated =>
      cases compiled
      exact ⟨[], rfl, fun _ _ => rfl⟩
  | body closer =>
      rw [compile] at compiled
      rcases closer.exists_first_outside tokens with all | ⟨inside, last, behind, rfl, all, outside⟩
      · rw [compileBody_of_all_inside token all] at compiled
        cases compiled
        exact ⟨tokens, (List.append_nil tokens).symm, fun stays => absurd ⟨_, _, rfl⟩ stays⟩
      · rw [compileBody_append token all outside] at compiled
        cases compiled
        refine ⟨inside ++ [last], by simp, fun _ more => ?_⟩
        rw [compile, List.append_assoc, List.singleton_append,
          compileBody_append token all outside]

/-- The next item is found in the tokens that are taken. -/
theorem exists_taken_of_next? (found : next? tokens = some (item, rest)) :
    ∃ taken, tokens = taken ++ rest ∧
      (¬ RanOut item → ∀ more, next? (taken ++ more) = some (item, more)) := by
  induction tokens with
  | nil => contradiction
  | cons token tokens ih =>
      rw [next?] at found
      split at found
      · next opening opens =>
          obtain ⟨taken, rfl, again⟩ := exists_taken_of_compile (Option.some.inj found)
          refine ⟨token :: taken, rfl, fun stays more => ?_⟩
          rw [List.cons_append, next?, opens]
          exact congrArg some (again stays more)
      · next opensNothing =>
          obtain ⟨taken, rfl, again⟩ := ih found
          refine ⟨token :: taken, rfl, fun stays more => ?_⟩
          rw [List.cons_append, next?, opensNothing]
          exact again stays more

theorem items_of_next?_none (missing : next? tokens = none) : items tokens = [] := by
  rw [items]
  split
  · rfl
  · next found => simp [missing] at found

theorem items_of_next?_some (found : next? tokens = some (item, rest)) :
    items tokens = item :: items rest := by
  rw [items]
  split
  · next missing => simp [found] at missing
  · next same =>
      cases found.symm.trans same
      rfl

/-- Pulling items takes tokens from the front, and gives the items of all tokens up to their
number.  If there are that many, and none of them has run out of tokens, the same items are
pulled whatever follows the tokens that are taken, and what follows is left. -/
theorem exists_taken_of_take (count : Nat) (tokens : List Token) :
    ∃ taken rest, tokens = taken ++ rest ∧
      take count tokens = ((items tokens).take count, rest) ∧
      (count ≤ (items tokens).length → (∀ item ∈ (items tokens).take count, ¬ RanOut item) →
        ∀ more, take count (taken ++ more) = ((items tokens).take count, more)) := by
  induction count generalizing tokens with
  | zero => exact ⟨[], tokens, rfl, rfl, fun _ _ _ => rfl⟩
  | succ count ih =>
      cases found : next? tokens with
      | none =>
          refine ⟨tokens, [], by simp, ?_, ?_⟩
          · rw [take, found, items_of_next?_none found, List.take_nil]
          · simp [items_of_next?_none found]
      | some next =>
          obtain ⟨item, behind⟩ := next
          obtain ⟨first, rfl, again⟩ := exists_taken_of_next? found
          obtain ⟨taken, rest, rfl, pulled, pulledAgain⟩ := ih behind
          rw [items_of_next?_some found, List.take_succ_cons]
          refine ⟨first ++ taken, rest, by simp, by rw [take, found]; simp only [pulled], ?_⟩
          intro enough stay more
          obtain ⟨stays, others⟩ := List.forall_mem_cons.mp stay
          rw [List.append_assoc, take, again stays]
          simp only [pulledAgain (Nat.le_of_succ_le_succ enough) others more]

/-- A body is decided by the first token that cannot stand inside it, and literals are pulled
without looking at any token that is not taken. -/
theorem take_noLookahead :
    (∀ closer opener tokens,
      compileBody closer opener tokens =
        match tokens.dropWhile closer.isInside with
        | [] => (.error (.unexpectedEnd closer.literal opener.span), [])
        | last :: rest =>
            (if closer.ends last then
                .ok (.concat
                  (((tokens.takeWhile closer.isInside).filter Token.isPart).map Token.part)
                  (cover opener last))
              else .error (.unexpectedToken ⟨last.kind, last.text, last.span⟩), rest)) ∧
    ∀ count tokens, ∃ taken rest, tokens = taken ++ rest ∧
      take count tokens = ((items tokens).take count, rest) ∧
      (count ≤ (items tokens).length → (∀ item ∈ (items tokens).take count, ¬ RanOut item) →
        ∀ more, take count (taken ++ more) = ((items tokens).take count, more)) :=
  ⟨compileBody_eq, exists_taken_of_take⟩

/-- A quoted string is pulled from in front of a character. -/
theorem take_noLookahead_quoted :
    let tokens : List Token :=
      [⟨.char, {}, [Byte.doubleQuote]⟩, ⟨.bodyText, {}, Bytes.ascii "a"⟩,
        ⟨.char, {}, [Byte.doubleQuote]⟩, ⟨.char, {}, Bytes.ascii ";"⟩]
    1 ≤ (items tokens).length ∧ (∀ item ∈ (items tokens).take 1, ¬ RanOut item) ∧
      ∃ taken rest, tokens = taken ++ rest ∧
        ∀ more, take 1 (taken ++ more) = ((items tokens).take 1, more) := by
  intro tokens
  have opens : Enclosure.doubleQuote.Opens ⟨.char, {}, [Byte.doubleQuote]⟩ := ⟨rfl, rfl⟩
  have closes : Enclosure.doubleQuote.Closes ⟨.char, {}, [Byte.doubleQuote]⟩ := ⟨rfl, rfl⟩
  have isPart : ∀ part ∈ [Token.mk .bodyText {} (Bytes.ascii "a")], part.isPart := by decide
  have first := items_cons_of_closes opens isPart closes [⟨.char, {}, Bytes.ascii ";"⟩]
  have enough : 1 ≤ (items tokens).length := by
    rw [show items tokens = _ from first]
    exact Nat.succ_pos _
  have stays : ∀ item ∈ (items tokens).take 1, ¬ RanOut item := by
    rw [show items tokens = _ from first]
    simp [RanOut]
  obtain ⟨taken, rest, split, -, again⟩ := take_noLookahead.2 1 tokens
  exact ⟨enough, stays, taken, rest, split, again enough stays⟩

end Literal

end PageScript
