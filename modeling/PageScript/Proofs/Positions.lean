import PageScript.Literal.Items
import PageScript.Proofs.LineTable

/-!
# The positions of tokens and literals

A token stands where the bytes before it say, so its line and its column are those of the
page and of every line table made from it.  Compiling literals makes no position of its own:
whatever is compiled from tokens, and whatever is wrong with them, is placed where one of
the tokens is.
-/

namespace PageScript

namespace Expr

mutual

/-- The spans of an expression and of all its parts. -/
def spans : Expr → List Span
  | .literal _ span => [span]
  | .variable _ span => [span]
  | .concat parts span => span :: spansAll parts

/-- The spans of parts and of all their parts. -/
def spansAll : List Expr → List Span
  | [] => []
  | part :: rest => spans part ++ spansAll rest

end

theorem mem_spansAll {parts : List Expr} {span : Span} (member : span ∈ spansAll parts) :
    ∃ part ∈ parts, span ∈ part.spans := by
  induction parts with
  | nil => simp [spansAll] at member
  | cons part parts ih =>
      rw [spansAll, List.mem_append] at member
      rcases member with here | later
      · exact ⟨part, List.mem_cons_self, here⟩
      · obtain ⟨other, inParts, found⟩ := ih later
        exact ⟨other, List.mem_cons_of_mem _ inParts, found⟩

end Expr

/-- A span begins where a token does. -/
structure Span.BeginsAt (span : Span) (token : Token) : Prop where
  start : span.start = token.span.start
  line : span.line = token.span.line
  column : span.column = token.span.column
  file : span.file = token.span.file

theorem Token.span_beginsAt (token : Token) : token.span.BeginsAt token :=
  ⟨rfl, rfl, rfl, rfl⟩

namespace Literal

/-- The spans of an item: those of an expression, or that of an error. -/
def spans : Item → List Span
  | .ok expr => expr.spans
  | .error error => [error.span]

/-- Every span of an item begins where one of the tokens does. -/
def Anchored (tokens : List Token) (item : Item) : Prop :=
  ∀ span ∈ spans item, ∃ token ∈ tokens, span.BeginsAt token

/-- More tokens anchor what fewer do. -/
theorem Anchored.mono {tokens more : List Token} {item : Item} (anchored : Anchored tokens item)
    (subset : tokens ⊆ more) : Anchored more item := by
  intro span member
  obtain ⟨token, inTokens, begins⟩ := anchored span member
  exact ⟨token, subset inTokens, begins⟩

theorem anchored_of_span {tokens : List Token} {item : Item} {token : Token}
    (alone : spans item = [token.span]) (member : token ∈ tokens) : Anchored tokens item := by
  intro span found
  rw [alone, List.mem_singleton] at found
  exact ⟨token, member, found ▸ token.span_beginsAt⟩

/-- A part of a body has the span of its token and no other. -/
theorem spans_of_role {closer : Closer} {token : Token} {expr : Expr}
    (isPart : role closer token = .part expr) : expr.spans = [token.span] := by
  unfold role at isPart
  split at isPart
  · cases isPart
    rfl
  · cases isPart
    rfl
  · contradiction
  · split at isPart <;> contradiction
  · contradiction

/-- What a body is taken from: its parts and the token that ends it are tokens of the
stream, and so are the tokens left. -/
structure Body.From (tokens : List Token) (body : Body) : Prop where
  parts : ∀ part ∈ body.parts, ∃ token ∈ tokens, part.spans = [token.span]
  last : ∀ token ended, body.last = some (token, ended) → token ∈ tokens
  rest : body.rest ⊆ tokens

theorem takeBody_from (closer : Closer) (tokens : List Token) :
    (takeBody closer tokens).From tokens := by
  induction tokens with
  | nil => exact ⟨by simp [takeBody], by simp [takeBody], by simp [takeBody]⟩
  | cons token rest ih =>
      have onward := List.subset_cons_self token rest
      rw [takeBody]
      split
      · next expr isPart =>
          refine ⟨?_, fun other ended found => onward (ih.last other ended found),
            List.Subset.trans ih.rest onward⟩
          intro part member
          rcases List.mem_cons.mp member with rfl | later
          · exact ⟨token, List.mem_cons_self, spans_of_role isPart⟩
          · obtain ⟨other, inRest, alone⟩ := ih.parts part later
            exact ⟨other, onward inRest, alone⟩
      · refine ⟨?_, fun other ended found => onward (ih.last other ended found),
          List.Subset.trans ih.rest onward⟩
        intro part member
        obtain ⟨other, inRest, alone⟩ := ih.parts part member
        exact ⟨other, onward inRest, alone⟩
      · exact ⟨by simp, by simp, onward⟩
      · exact ⟨by simp, by simp, onward⟩

theorem compileBody_anchored (closer : Closer) (opener : Token) (tokens : List Token) :
    Anchored (opener :: tokens) (compileBody closer opener tokens).1 := by
  have taken := takeBody_from closer tokens
  rw [compileBody]
  split
  · exact anchored_of_span rfl List.mem_cons_self
  · intro span member
    rw [spans, Expr.spans, List.mem_cons] at member
    rcases member with rfl | inParts
    · exact ⟨opener, List.mem_cons_self, rfl, rfl, rfl, rfl⟩
    · obtain ⟨part, isPart, found⟩ := Expr.mem_spansAll inParts
      obtain ⟨token, inTokens, alone⟩ := taken.parts part isPart
      rw [alone, List.mem_singleton] at found
      exact ⟨token, List.mem_cons_of_mem _ inTokens, found ▸ token.span_beginsAt⟩
  · next token ended =>
      exact anchored_of_span rfl (List.mem_cons_of_mem _ (taken.last token false ended))

theorem compile_anchored (opening : Opening) (token : Token) (rest : List Token) :
    Anchored (token :: rest) (compile opening token rest).1 := by
  cases opening with
  | single =>
      refine anchored_of_span ?_ List.mem_cons_self
      unfold compile compileSingle
      simp only
      split
      · split <;> rfl
      · rfl
  | unterminated => exact anchored_of_span rfl List.mem_cons_self
  | body closer => exact compileBody_anchored closer token rest

/-- The tokens that a literal leaves are tokens of the stream. -/
theorem compile_rest_subset (opening : Opening) (token : Token) (rest : List Token) :
    (compile opening token rest).2 ⊆ rest := by
  cases opening with
  | single => exact List.Subset.refl rest
  | unterminated => exact List.Subset.refl rest
  | body closer =>
      have left := (takeBody_from closer rest).rest
      unfold compile compileBody
      simp only
      split <;> exact left

theorem next?_anchored {tokens rest : List Token} {item : Item}
    (found : next? tokens = some (item, rest)) : Anchored tokens item ∧ rest ⊆ tokens := by
  induction tokens with
  | nil => simp [next?] at found
  | cons token tail ih =>
      have onward := List.subset_cons_self token tail
      unfold next? at found
      split at found
      · next opening _ =>
          obtain ⟨rfl, rfl⟩ := Prod.mk.inj (Option.some.inj found)
          exact ⟨compile_anchored opening token tail,
            List.Subset.trans (compile_rest_subset opening token tail) onward⟩
      · obtain ⟨anchored, left⟩ := ih found
        exact ⟨anchored.mono onward, List.Subset.trans left onward⟩

/-- Every item of any token stream is anchored in it. -/
theorem items_anchored (tokens : List Token) : ∀ item ∈ items tokens, Anchored tokens item := by
  fun_induction items tokens with
  | case1 => simp
  | case2 tokens item rest found ih =>
      obtain ⟨anchored, left⟩ := next?_anchored found
      intro other member
      rcases List.mem_cons.mp member with rfl | later
      · exact anchored
      · exact (ih other later).mono left

end Literal

/-- The positions of the tokens of a page are exact and increasing, and what is compiled
from any of the tokens, as the next items or after any opener, is placed where tokens
are. -/
theorem scan_located (mode : Mode) (bytes : Bytes) (file : FileId)
    (short : bytes.length < UInt32.size - 1) :
    let tokens := (scan mode bytes file).tokens
    (∀ token ∈ tokens, token.span.Located bytes ∧ token.span.file = file) ∧
      (tokens.Pairwise fun left right => left.span.Precedes right.span) ∧
      (∀ rest, rest <:+ tokens → ∀ item ∈ Literal.items rest, Literal.Anchored tokens item) ∧
      ∀ opener rest opening, opener :: rest <:+ tokens →
        Literal.Anchored tokens (Literal.compile opening opener rest).1 := by
  intro tokens
  have tiles : Tiles file [] bytes tokens := by
    rw [show tokens = _ from scan_tokens mode bytes file]
    exact (Call.start mode bytes).tokensOnward_tiles file
  have fits : bytes.length + 1 < UInt32.size := Nat.add_lt_of_lt_sub short
  refine ⟨fun token member => ⟨tiles.located fits token member, ?_⟩,
    tiles.pairwise_precedes (by simpa using fits), ?_, ?_⟩
  · obtain ⟨before, data, after, kind, -, rfl⟩ := tiles.exists_of_mem member
    rfl
  · intro rest suffix item member
    exact (Literal.items_anchored rest item member).mono suffix.subset
  · intro opener rest opening suffix
    exact (Literal.compile_anchored opening opener rest).mono suffix.subset

/-- A heredoc with a variable on its second line. -/
theorem scan_located_heredoc :
    let page := Bytes.ascii "<?php\r\n<<<A\n\\u\x7b41\x7d\n$b\n A;"
    page.length < UInt32.size - 1 ∧
      let tokens := (scan .text page {}).tokens
      (∀ token ∈ tokens, token.span.Located page ∧ token.span.file = {}) ∧
        (tokens.Pairwise fun left right => left.span.Precedes right.span) ∧
        (∀ rest, rest <:+ tokens → ∀ item ∈ Literal.items rest, Literal.Anchored tokens item) ∧
        ∀ opener rest opening, opener :: rest <:+ tokens →
          Literal.Anchored tokens (Literal.compile opening opener rest).1 :=
  ⟨by decide, scan_located .text _ {} (by decide)⟩

end PageScript
