import Mathlib.Data.List.Forall2
import PageScript.Proofs.CutsInStep
import PageScript.Proofs.Stream

/-!
# Line endings

A page with carriage returns before its line feeds is scanned like the page without: the
same kinds of tokens on the same lines.  The two scans are compared call by call.  Both
calls are of the same mode, with the same bytes left but for the returns and with as many
lines behind them, and what they cut keeps it so.
-/

namespace PageScript

/-- A token of the same kind on the same line. -/
structure Token.Beside (token other : Token) : Prop where
  kind : other.kind = token.kind
  line : other.span.line = token.span.line

namespace Lexeme

variable {next : Option Mode} {ahead other behind behindToo : Bytes}
  {lexemes others : List Lexeme}

/-- Lexemes that are cut in step leave the pages abreast. -/
theorem InStep.abreast (inStep : InStep next ahead lexemes other others) :
    Mode.Abreast next (ahead.drop (totalSize lexemes)) (other.drop (totalSize others)) := by
  induction inStep with
  | done abreast => exact abreast
  | cons _ _ ih => simpa [← List.drop_drop] using ih

/-- Lexemes that are cut in step take as many line feeds. -/
theorem InStep.count_eq (inStep : InStep next ahead lexemes other others) :
    (other.take (totalSize others)).count Byte.lineFeed =
      (ahead.take (totalSize lexemes)).count Byte.lineFeed := by
  induction inStep with
  | done => rfl
  | cons feeds _ ih =>
      simp only [totalSize_cons, List.take_length_add_append, List.count_append, feeds, ih]

/-- Behind as many line feeds they are placed on the same lines. -/
theorem InStep.place_beside (inStep : InStep next ahead lexemes other others) (file : FileId)
    (feeds : behindToo.count Byte.lineFeed = behind.count Byte.lineFeed) :
    List.Forall₂ Token.Beside (place file behind ahead lexemes)
      (place file behindToo other others) := by
  induction inStep generalizing behind behindToo with
  | done => exact .nil
  | @cons data dataToo rest restToo kind lexemes others feedsHere _ ih =>
      simp only [place, Bytes.readOn_append_length, List.drop_left]
      refine .cons ⟨rfl, ?_⟩ (ih ?_)
      · simp only [Token.after, Span.after, feeds]
      · simp only [List.count_append, List.count_reverse, feedsHere, feeds]

end Lexeme

namespace Call

/-- A call of the same mode at the same place of the page with returns. -/
structure Beside (call other : Call) : Prop where
  mode : other.mode = call.mode
  abreast : Mode.Abreast (some call.mode) call.ahead other.ahead
  feeds : other.behind.count Byte.lineFeed = call.behind.count Byte.lineFeed

variable {call other : Call}

theorem Beside.inStep (beside : Beside call other) (named : call.mode.IsNamed)
    (noReturn : Byte.carriageReturn ∉ call.ahead) :
    Cut.InStep call.ahead other.ahead call.cut other.cut := by
  rw [cut, cut, beside.mode]
  exact Mode.cut_inStep named noReturn beside.abreast

theorem Beside.onward (beside : Beside call other) (named : call.mode.IsNamed)
    (noReturn : Byte.carriageReturn ∉ call.ahead) {mode : Mode}
    (goesOn : call.cut.next = some mode) : Beside (call.onward mode) (other.onward mode) where
  mode := rfl
  abreast := goesOn ▸ (beside.inStep named noReturn).lexemes.abreast
  feeds := by
    have feeds := (beside.inStep named noReturn).lexemes.count_eq
    simp only [Call.onward, Bytes.readOn, size, List.count_append, List.count_reverse, feeds,
      beside.feeds]

/-- Two scans that are beside each other at one call stay so. -/
theorem Beside.tokensOnward (file : FileId) (beside : Beside call other)
    (named : call.mode.IsNamed) (noReturn : Byte.carriageReturn ∉ call.ahead) :
    List.Forall₂ Token.Beside (call.tokensOnward file) (other.tokensOnward file) := by
  induction call using onward_induction generalizing other with
  | stop call stops =>
      have inStep := beside.inStep named noReturn
      have stopsToo := inStep.next.trans stops
      rw [tokensOnward_of_stop file stops, tokensOnward_of_stop file stopsToo]
      exact inStep.lexemes.place_beside file beside.feeds
  | next call mode goesOn ih =>
      have inStep := beside.inStep named noReturn
      have goesOnToo := inStep.next.trans goesOn
      have later := ih (beside.onward named noReturn goesOn) (Mode.isNamed_of_cut_next goesOn)
        fun member => noReturn (List.mem_of_mem_drop member)
      rw [tokensOnward_of_next file goesOn, tokensOnward_of_next file goesOnToo]
      exact List.rel_append (inStep.lexemes.place_beside file beside.feeds) later

end Call

theorem Mode.isNamed_of_isOutside {mode : Mode} (outside : mode.isOutside) : mode.IsNamed := by
  cases mode with
  | body => contradiction
  | _ => trivial

/-- The tokens of a page do not depend on how its lines end: with a carriage return before
every line feed there are as many, one by one of the same kinds and on the same lines. -/
theorem scan_withReturns {mode : Mode} (outside : mode.isOutside) {bytes : Bytes}
    (noReturn : Byte.carriageReturn ∉ bytes) (file : FileId) :
    List.Forall₂ Token.Beside (scan mode bytes file).tokens
      (scan mode bytes.withReturns file).tokens := by
  rw [scan_tokens, scan_tokens]
  refine Call.Beside.tokensOnward file ⟨rfl, .inl rfl, rfl⟩ ?_ noReturn
  exact Mode.isNamed_of_isOutside outside

/-- A line comment, and a heredoc with a backslash at the end of a line. -/
theorem scan_withReturns_heredoc :
    let page := Bytes.ascii "<?php\n# a\n<<<A\nb\\\n$c\n A;"
    Byte.carriageReturn ∉ page ∧
      List.Forall₂ Token.Beside (scan .text page {}).tokens
        (scan .text (Bytes.withReturns page) {}).tokens :=
  ⟨by decide, scan_withReturns rfl (by decide) {}⟩

end PageScript
