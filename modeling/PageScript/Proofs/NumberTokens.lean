import PageScript.Proofs.NumberGrammar
import PageScript.Proofs.Resumption

/-!
# Number tokens

Wherever a script goes on with a digit, or with a dot and a digit, the next token is the
longest number that stands there.
-/

namespace PageScript

open Lexeme (StartsNumber)

namespace Mode

/-- What opens a number opens nothing else. -/
theorem cutScript_of_startsNumber {bytes : Bytes} (starts : StartsNumber bytes) :
    cutScript bytes = { lexemes := [Lexeme.number bytes], next := some .script } := by
  obtain ⟨first, rest, rfl, opens⟩ : ∃ first rest, bytes = first :: rest ∧
      (Byte.isDigit first ∨ first = Byte.dot ∧ Bytes.startsWhere Byte.isDigit rest) := by
    rcases starts with digit | ⟨rest, rfl, digit⟩
    · obtain ⟨first, rest, rfl, digit⟩ := Bytes.exists_cons_of_startsWhere digit
      exact ⟨first, rest, rfl, .inl digit⟩
    · exact ⟨Byte.dot, rest, rfl, .inr ⟨rfl, digit⟩⟩
  have other (byte : UInt8) (noDigit : ¬ Byte.isDigit byte) (notDot : Byte.dot ≠ byte) :
      first ≠ byte := by
    rcases opens with digit | ⟨rfl, -⟩
    · exact Byte.ne_of_isDigit digit noDigit
    · exact notDot
  have noSpace : ¬ Byte.isSpace first := by
    have notSpace := other Byte.space (by decide) (by decide)
    have notTab := other Byte.tab (by decide) (by decide)
    have notFeed := other Byte.lineFeed (by decide) (by decide)
    have notReturn := other Byte.carriageReturn (by decide) (by decide)
    simp [Byte.isSpace, Byte.isBlank, notSpace, notTab, notFeed, notReturn]
  have noVariable : ¬ Lexeme.startsVariable (first :: rest) := by
    simp [Lexeme.startsVariable, other Byte.dollar (by decide) (by decide)]
  have notQuestion := other Byte.question (by decide) (by decide)
  have notHash := other Byte.hash (by decide) (by decide)
  have notSlash := other Byte.slash (by decide) (by decide)
  have isNumber : (Byte.isDigit first ||
      (decide (first = Byte.dot) && Bytes.startsWhere Byte.isDigit rest)) = true := by
    simpa using opens
  rw [cutScript]
  simp only [noSpace, noVariable, notQuestion, notHash, notSlash, isNumber, decide_false,
    Bool.false_and, Bool.or_false, Bool.false_eq_true, if_true, if_false]

end Mode

namespace Number

theorem longest_of_startsNumber {bytes : Bytes} (starts : StartsNumber bytes) :
    let text := bytes.take (Lexeme.number bytes).size
    Bytes.IsLongestFront (fun text => ∃ kind, IsNumber text kind) text bytes ∧
      ∀ kind, IsNumber text kind ↔ kind = (Lexeme.number bytes).kind := by
  obtain ⟨text, rest, split, isNumber, size⟩ := number_isNumber starts
  have taken : bytes.take (Lexeme.number bytes).size = text := by
    rw [size, split, List.take_left]
  rw [taken]
  refine ⟨⟨⟨rest, split.symm⟩, ⟨_, isNumber⟩, ?_⟩, fun kind => ⟨fun also => ?_, ?_⟩⟩
  · rintro other ⟨behind, rfl⟩ ⟨kind, otherNumber⟩
    rw [← size]
    exact (otherNumber.reaches behind).length_le
  · have same := (also.reaches rest).kind_eq
    rw [← split] at same
    exact (same size).symm
  · rintro rfl
    exact isNumber

/-- Where a script goes on with a number, the next token is the longest number that stands
there, and its kind says whether that number has a fraction dot or an exponent. -/
theorem scan_longestNumber {mode : Mode} {bytes : Bytes} {file : FileId} {before : Scanner}
    (called : Mode.grammar.Calls mode (Scanner.ofBytes bytes file) .script before)
    (starts : StartsNumber (bytes.drop before.cursor.offset)) :
    ∃ token later, (scan mode bytes file).tokens = before.tokens ++ token :: later ∧
      token.span.start = before.cursor.offset ∧
      Bytes.IsLongestFront (fun text => ∃ kind, IsNumber text kind) token.data
        (bytes.drop before.cursor.offset) ∧
      ∀ kind, IsNumber token.data kind ↔ kind = token.kind := by
  obtain ⟨behind, offset, scanned⟩ := Mode.exists_onward_of_calls called
  generalize bytes.drop before.cursor.offset = ahead at starts scanned ⊢
  have cut : (Call.mk .script behind ahead).cut =
      { lexemes := [Lexeme.number ahead], next := some .script } :=
    Mode.cutScript_of_startsNumber starts
  have goesOn : (Call.mk .script behind ahead).cut.next = some .script := congrArg Cut.next cut
  rw [Call.tokensOnward_of_next file goesOn, Call.tokens, cut] at scanned
  exact ⟨_, _, scanned, offset.symm, longest_of_startsNumber starts⟩

/-- A second dot and a letter that begins no exponent are left behind. -/
theorem scan_longestNumber_dotted :
    let page := Bytes.ascii "1_0.5e.2"
    ∃ before, Mode.grammar.Calls .script (Scanner.ofBytes page {}) .script before ∧
      StartsNumber (page.drop before.cursor.offset) ∧
      ∃ token later, (scan .script page {}).tokens = before.tokens ++ token :: later ∧
        token.span.start = before.cursor.offset ∧
        Bytes.IsLongestFront (fun text => ∃ kind, IsNumber text kind) token.data
          (page.drop before.cursor.offset) ∧
        ∀ kind, IsNumber token.data kind ↔ kind = token.kind := by
  intro page
  have called : Mode.grammar.Calls Mode.script (Scanner.ofBytes page {}) Mode.script
      (Scanner.ofBytes page {}) := .first
  have starts : StartsNumber (page.drop (Scanner.ofBytes page {}).cursor.offset) := .inl rfl
  exact ⟨_, called, starts, scan_longestNumber called starts⟩

end Number

end PageScript
