import PageScript.Proofs.AlignedLexemes
import PageScript.Proofs.ClosingQuotes

/-!
# Writing bytes between single quotes

Any bytes can be written as a single-quoted string: a backslash in front of every backslash
and every single quote is enough.  The scanner and the compiler look for the same pairs, so
the string ends where it was meant to and its value is what was written, whatever follows.
-/

namespace PageScript

namespace Bytes

/-- A byte as it is written between single quotes. -/
def escapeSingle (byte : UInt8) : Bytes :=
  if byte = Byte.backslash ∨ byte = Byte.singleQuote then [Byte.backslash, byte] else [byte]

/-- Bytes as they are written between single quotes, without the quotes. -/
def singleBody (value : Bytes) : Bytes :=
  value.flatMap escapeSingle

/-- Bytes written as a single-quoted string. -/
def singleQuoted (value : Bytes) : Bytes :=
  Byte.singleQuote :: value.singleBody ++ [Byte.singleQuote]

section

variable {byte : UInt8} (value : Bytes)

theorem singleBody_of_special (special : byte = Byte.backslash ∨ byte = Byte.singleQuote) :
    singleBody (byte :: value) = Byte.backslash :: byte :: value.singleBody := by
  rw [singleBody, List.flatMap_cons, escapeSingle, if_pos special]
  rfl

theorem singleBody_of_plain (plain : ¬ (byte = Byte.backslash ∨ byte = Byte.singleQuote)) :
    singleBody (byte :: value) = byte :: value.singleBody := by
  rw [singleBody, List.flatMap_cons, escapeSingle, if_neg plain]
  rfl

end

end Bytes

/-- The scanner finds the end of what is written. -/
theorem Lexeme.singleQuoteLength?_singleBody (value rest : Bytes) :
    singleQuoteLength? (value.singleBody ++ Byte.singleQuote :: rest) =
      some (value.singleBody.length + 1) := by
  induction value with
  | nil => exact singleQuoteLength?_quote rest
  | cons byte value ih =>
      by_cases special : byte = Byte.backslash ∨ byte = Byte.singleQuote
      · rw [Bytes.singleBody_of_special value special, List.cons_append, List.cons_append,
          singleQuoteLength?_escape, ih]
        rfl
      · obtain ⟨notBackslash, notQuote⟩ := not_or.mp special
        rw [Bytes.singleBody_of_plain value special, List.cons_append,
          singleQuoteLength?_of_ne notQuote notBackslash, ih]
        rfl

/-- What is written has the value that it was written for. -/
theorem Escape.decodeSingle_singleBody (value : Bytes) :
    decodeSingle value.singleBody = value := by
  induction value with
  | nil => rfl
  | cons byte value ih =>
      by_cases special : byte = Byte.backslash ∨ byte = Byte.singleQuote
      · have escapable : byte = Byte.backslash || byte = Byte.singleQuote := by simpa using special
        rw [Bytes.singleBody_of_special value special, decodeSingle.eq_def]
        simp only [if_pos escapable, if_true, ih]
      · obtain ⟨notBackslash, -⟩ := not_or.mp special
        rw [Bytes.singleBody_of_plain value special, decodeSingle.eq_def]
        simp only [if_neg notBackslash, ih]

/-- What is written is one token of a script. -/
theorem Mode.cutScript_singleQuoted (value rest : Bytes) :
    cutScript (value.singleQuoted ++ rest) = .one .singleQuoted value.singleQuoted.length := by
  have string : value.singleQuoted ++ rest =
      Byte.singleQuote :: (value.singleBody ++ Byte.singleQuote :: rest) := by
    simp [Bytes.singleQuoted]
  have size : value.singleBody.length + 1 + 1 = value.singleQuoted.length := by
    simp [Bytes.singleQuoted]
  rw [string, cutScript_singleQuote, cutSingleQuoted, List.drop_succ_cons, List.drop_zero,
    Lexeme.singleQuoteLength?_singleBody, ← size]

theorem Call.tokensOnward_singleQuoted (file : FileId) (behind value rest : Bytes) :
    ∃ later, (Call.mk .script behind (value.singleQuoted ++ rest)).tokensOnward file =
      .after file behind .singleQuoted value.singleQuoted :: later := by
  have cut : (Call.mk .script behind (value.singleQuoted ++ rest)).cut =
      .one .singleQuoted value.singleQuoted.length := Mode.cutScript_singleQuoted value rest
  rw [tokensOnward_of_next file (congrArg Cut.next cut), Call.tokens, cut, Cut.one,
    Lexeme.place, List.take_left]
  exact ⟨_, rfl⟩

namespace Literal

theorem compileSingle_singleQuoted (value : Bytes) (span : Span) :
    compileSingle ⟨.singleQuoted, span, value.singleQuoted⟩ = .ok (.literal value span) := by
  simp [compileSingle, Bytes.singleQuoted, Escape.decodeSingle_singleBody]

/-- Any bytes, written as a single-quoted string, are one token behind an open tag, whatever
follows, and the literal of that token has them as its value. -/
theorem singleQuoted_readBack (value rest : Bytes) (file : FileId) :
    let tokens := (scan .text (Bytes.ascii "<?php " ++ (value.singleQuoted ++ rest)) file).tokens
    let span : Span := ⟨6, 6 + value.singleQuoted.length, 1, 7, file⟩
    ∃ token, tokens[1]? = some token ∧ token.kind = .singleQuoted ∧
      token.data = value.singleQuoted ∧ token.span = span ∧
      compileSingle token = .ok (.literal value token.span) := by
  intro tokens span
  obtain ⟨later, string⟩ :=
    Call.tokensOnward_singleQuoted file (Bytes.ascii "<?php ").reverse value rest
  have second : tokens[1]? = some ⟨.singleQuoted, span, value.singleQuoted⟩ := by
    rw [show tokens = _ from scan_openTag (value.singleQuoted ++ rest) file, string]
    rfl
  exact ⟨⟨.singleQuoted, span, value.singleQuoted⟩, second, rfl, rfl, rfl,
    compileSingle_singleQuoted value span⟩

end Literal

end PageScript
