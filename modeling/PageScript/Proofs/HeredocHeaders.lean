import PageScript.Proofs.HeredocLines
import PageScript.Proofs.Resumption

/-!
# Heredoc headers

A header is found exactly where one is written, and no more than what is written is taken
for it: its length and its label are determined by the bytes.

Where a script goes on with the opener of a heredoc, a header that stands there becomes the
next token.  If none does, the first two bytes of the opener are a shift operator, and the
script goes on behind them.
-/

namespace PageScript

namespace Heredoc

variable {bytes : Bytes} {header other : Header}

/-- The front of some bytes is written as a header, with the length and the label given. -/
structure Heads (bytes : Bytes) (header : Header) : Prop where
  size_le : header.size ≤ bytes.length
  written : IsHeader (bytes.take header.size) header.label

/-- What is found is what is written, and whatever is written is found. -/
theorem header?_eq_some_iff : header? bytes = some header ↔ Heads bytes header := by
  constructor
  · intro found
    obtain ⟨text, rest, rfl, written, size⟩ := exists_isHeader found
    constructor
    · rw [size, List.length_append]
      exact Nat.le_add_right _ _
    · rw [size, List.take_left]
      exact written
  · intro heads
    have found := header?_append heads.written (bytes.drop header.size)
    rwa [List.take_append_drop, List.length_take_of_le heads.size_le] at found

theorem Heads.unique (heads : Heads bytes header) (also : Heads bytes other) : header = other := by
  have found := header?_eq_some_iff.mpr heads
  rw [header?_eq_some_iff.mpr also] at found
  exact (Option.some.inj found).symm

end Heredoc

open Heredoc (Heads Header)

namespace Mode

variable {bytes : Bytes} {header : Header}

/-- Nothing else in a script begins like a heredoc. -/
theorem cutScript_of_opener (opens : Heredoc.opener <+: bytes) :
    cutScript bytes = cutHeredoc bytes := by
  obtain ⟨rest, rfl⟩ := opens
  rfl

theorem cutHeredoc_of_heads (heads : Heads bytes header) :
    ∃ later, (cutHeredoc bytes).lexemes = ⟨.heredocStart, header.size⟩ :: later := by
  rw [cutHeredoc, Heredoc.header?_eq_some_iff.mpr heads]
  simp only
  split
  · exact ⟨_, rfl⟩
  · exact ⟨_, rfl⟩

/-- Three less-than signs that open nothing are not one operator. -/
theorem operator_of_opener (opens : Heredoc.opener <+: bytes) :
    Lexeme.operator bytes = ⟨.operator, 2⟩ := by
  obtain ⟨rest, rfl⟩ := opens
  rfl

theorem cutHeredoc_of_not_heads (opens : Heredoc.opener <+: bytes)
    (none : ∀ header, ¬ Heads bytes header) :
    cutHeredoc bytes = { lexemes := [⟨.operator, 2⟩], next := some .script } := by
  have missing : Heredoc.header? bytes = .none := by
    apply Option.eq_none_iff_forall_not_mem.mpr
    intro header found
    exact none header (Heredoc.header?_eq_some_iff.mp found)
  rw [cutHeredoc, missing]
  simp only
  rw [cutOperator, operator_of_opener opens]

end Mode

/-- A token of a kind that takes `size` bytes at an offset of a page. -/
structure Token.Takes (token : Token) (kind : Kind) (bytes : Bytes) (offset size : Nat) :
    Prop where
  kind_eq : token.kind = kind
  start_eq : token.span.start = offset
  stop_eq : token.span.stop = offset + size
  data_eq : token.data = (bytes.drop offset).take size

theorem Token.after_takes {file : FileId} {kind : Kind} {bytes behind ahead : Bytes} {size : Nat}
    (left : bytes.drop behind.length = ahead) (fits : size ≤ ahead.length) :
    (Token.after file behind kind (ahead.take size)).Takes kind bytes behind.length size := by
  constructor
  · rfl
  · rfl
  · rw [Token.after, List.length_take_of_le fits]
    rfl
  · rw [left]
    rfl

namespace Call

/-- The first piece of a call is the first of the tokens from that call on. -/
theorem exists_tokensOnward_eq_cons {kind : Kind} {size : Nat} {lexemes : List Lexeme}
    (file : FileId) (call : Call) (cut : call.cut.lexemes = ⟨kind, size⟩ :: lexemes) :
    ∃ later, call.tokensOnward file =
      .after file call.behind kind (call.ahead.take size) :: later := by
  cases next : call.cut.next with
  | none =>
      rw [tokensOnward_of_stop file next, tokens, cut]
      exact ⟨_, rfl⟩
  | some mode =>
      rw [tokensOnward_of_next file next, tokens, cut]
      exact ⟨_, rfl⟩

end Call

namespace Mode

variable {mode : Mode} {bytes : Bytes} {file : FileId} {before : Scanner}

/-- A header that stands where a script goes on is the next token. -/
theorem exists_headerToken {header : Header}
    (called : grammar.Calls mode (Scanner.ofBytes bytes file) .script before)
    (opens : Heredoc.opener <+: bytes.drop before.cursor.offset)
    (heads : Heads (bytes.drop before.cursor.offset) header) :
    ∃ token later, (scan mode bytes file).tokens = before.tokens ++ token :: later ∧
      token.Takes .heredocStart bytes before.cursor.offset header.size := by
  obtain ⟨behind, offset, scanned⟩ := exists_onward_of_calls called
  rw [offset] at opens heads scanned ⊢
  obtain ⟨lexemes, taken⟩ := cutHeredoc_of_heads heads
  rw [← cutScript_of_opener opens] at taken
  obtain ⟨later, tokens⟩ :=
    Call.exists_tokensOnward_eq_cons file (.mk .script behind (bytes.drop behind.length)) taken
  rw [tokens] at scanned
  exact ⟨_, later, scanned, Token.after_takes rfl heads.size_le⟩

/-- If no header stands there, the shift operator is the next token, and nothing more is
taken. -/
theorem exists_shiftToken
    (called : grammar.Calls mode (Scanner.ofBytes bytes file) .script before)
    (opens : Heredoc.opener <+: bytes.drop before.cursor.offset)
    (none : ∀ header, ¬ Heads (bytes.drop before.cursor.offset) header) :
    ∃ token after, grammar.Calls mode (Scanner.ofBytes bytes file) .script after ∧
      after.tokens = before.tokens ++ [token] ∧ after.tokens <+: (scan mode bytes file).tokens ∧
      after.cursor.offset = before.cursor.offset + 2 ∧
      token.Takes .operator bytes before.cursor.offset 2 := by
  obtain ⟨call, published, warnings, isScript, rfl, reaches⟩ := exists_reaches_of_calls called
  have left : bytes.drop call.behind.length = call.ahead := reaches.left
  have offset : (call.scanner file published warnings).cursor.offset = call.behind.length := rfl
  rw [offset, left] at opens none
  have cut : call.cut = { lexemes := [⟨.operator, 2⟩], next := some .script } := by
    rw [Call.cut, isScript, Mode.cut, cutScript_of_opener opens]
    exact cutHeredoc_of_not_heads opens none
  have goesOn : call.cut.next = some .script := congrArg Cut.next cut
  have tokens : call.tokens file = [.after file call.behind .operator (call.ahead.take 2)] := by
    rw [Call.tokens, cut]
    rfl
  have size : call.size = 2 := by
    rw [Call.size, cut]
    rfl
  have fits : 2 ≤ call.ahead.length := Nat.le_of_succ_le opens.length_le
  rw [← isScript] at called
  refine ⟨.after file call.behind .operator (call.ahead.take 2), _, calls_onward called goesOn,
    ?_, ?_, ?_, Token.after_takes left fits⟩
  · have before : (call.scanner file published warnings).tokens = published.reverse := rfl
    rw [before, Call.scanner, Scanner.between, Scanner.tokens, tokens, List.reverse_append]
    rfl
  · rw [(reaches.onward goesOn).tokens]
    exact List.prefix_append _ _
  · rw [offset, ← Bytes.length_readOn call.behind call.ahead fits, ← size]
    rfl

end Mode

/-- A header is found exactly where one is written, and determined by what is written.  A
script that goes on with the opener of a heredoc takes the header that stands there, and
without one takes a shift operator and no more. -/
theorem scan_headers :
    (∀ bytes header, Heredoc.header? bytes = some header ↔ Heads bytes header) ∧
    (∀ bytes header other, Heads bytes header → Heads bytes other → header = other) ∧
    ∀ mode bytes file before,
      Mode.grammar.Calls mode (Scanner.ofBytes bytes file) .script before →
      let offset := before.cursor.offset
      let tokens := (scan mode bytes file).tokens
      Heredoc.opener <+: bytes.drop offset →
      (∀ header, Heads (bytes.drop offset) header →
        ∃ token later, tokens = before.tokens ++ token :: later ∧
          token.Takes .heredocStart bytes offset header.size) ∧
      ((∀ header, ¬ Heads (bytes.drop offset) header) →
        ∃ token after, Mode.grammar.Calls mode (Scanner.ofBytes bytes file) .script after ∧
          after.tokens = before.tokens ++ [token] ∧ after.tokens <+: tokens ∧
          after.cursor.offset = offset + 2 ∧ token.Takes .operator bytes offset 2) := by
  refine ⟨?_, ?_, ?_⟩
  · intro bytes header
    exact Heredoc.header?_eq_some_iff
  · intro bytes header other heads also
    exact heads.unique also
  · intro mode bytes file before called offset tokens opens
    constructor
    · intro header heads
      exact Mode.exists_headerToken called opens heads
    · intro none
      exact Mode.exists_shiftToken called opens none

/-- A quote that is closed makes a header, and one that is not makes none. -/
theorem scan_headers_quoted :
    let closed := Bytes.ascii "<<< \"A\"\r\n$b"
    let unclosed := Bytes.ascii "<<< \"A\r\n$b"
    (∃ token later, (scan .script closed {}).tokens = token :: later ∧
      token.Takes .heredocStart closed 0 9) ∧
    ∃ token after, Mode.grammar.Calls .script (Scanner.ofBytes unclosed {}) .script after ∧
      after.tokens = [token] ∧ after.tokens <+: (scan .script unclosed {}).tokens ∧
      after.cursor.offset = 2 ∧ token.Takes .operator unclosed 0 2 := by
  intro closed unclosed
  obtain ⟨found, -, reads⟩ := scan_headers
  constructor
  · have heads : Heads closed ⟨9, Bytes.ascii "A"⟩ := (found _ _).mp (by decide)
    exact (reads .script closed {} _ .first ⟨_, rfl⟩).1 _ heads
  · have none : ∀ header, ¬ Heads unclosed header := by
      intro header heads
      have missing : Heredoc.header? unclosed = .none := by decide
      have present := (found _ _).mpr heads
      rw [missing] at present
      contradiction
    exact (reads .script unclosed {} _ .first ⟨_, rfl⟩).2 none

end PageScript
