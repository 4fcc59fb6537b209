import PageScript.Proofs.ExactPieces

/-!
# Maximal munch

Whitespace, names, variables and operators are read as far as they go.  A token of one of
these kinds is of its class, and the bytes behind it would not make it longer.
-/

namespace PageScript

open Lexeme (IsExact operators)

/-- A name, reserved or not. -/
def Kind.IsWord (kind : Kind) : Prop :=
  kind = .name ∨ ∃ word, kind = .keyword word

/-- What is known about the token `token` from the bytes `after` behind it. -/
structure Token.IsMaximal (token : Token) (after : Bytes) : Prop where
  whitespace : token.kind = .whitespace → Bytes.IsMaximalRun Byte.isSpace token.data after
  word : token.kind.IsWord → Bytes.IsMaximalName token.data after
  /-- A name is a keyword exactly if it spells it, in letters of either case. -/
  keyword_iff :
    token.kind.IsWord → ∀ word : Keyword,
      token.kind = .keyword word ↔ token.data.map Byte.toLower = word.spelling
  notReserved : token.kind = .name → token.data.map Byte.toLower ∉ Keyword.reserved
  sigiled :
    token.kind = .variable →
      ∃ name, token.data = Byte.dollar :: name ∧ Bytes.IsMaximalName name after
  operator :
    token.kind = .operator →
      Bytes.IsLongestFront (· ∈ operators) token.data (token.data ++ after)
  /-- A single character stands where no operator does. -/
  char :
    token.kind = .char →
      ∃ byte, token.data = [byte] ∧ byte < 0x80 ∧
        ∀ text ∈ operators, ¬ text <+: byte :: after

namespace Lexeme.IsExact

variable {unterminated : Option Unterminated} {data after : Bytes} {kind : Kind}

/-- The name of a token is maximal whether it is reserved or not. -/
theorem isMaximalName (exact : IsExact unterminated data after kind)
    (isWord : kind.IsWord) : Bytes.IsMaximalName data after := by
  rcases isWord with rfl | ⟨word, rfl⟩
  · exact exact.1
  · exact exact.1

theorem keyword_iff (exact : IsExact unterminated data after kind)
    (isWord : kind.IsWord) (word : Keyword) :
    kind = .keyword word ↔ data.map Byte.toLower = word.spelling := by
  rcases isWord with rfl | ⟨spelled, rfl⟩
  · have notReserved := exact.2
    constructor
    · intro isKeyword
      contradiction
    · intro spells
      rw [spells] at notReserved
      exact absurd word.isReserved notReserved
  · rw [exact.2]
    cases spelled
    cases word
    simp

end Lexeme.IsExact

/-- Every token of a scan is munched maximally: where it stands, with the bytes of the page
behind it, it is as long as its kind allows. -/
theorem scan_maximalMunch (mode : Mode) (bytes : Bytes) (file : FileId) :
    ∀ token ∈ (scan mode bytes file).tokens, ∃ before after,
      bytes = before ++ (token.data ++ after) ∧ token.span.start = before.length ∧
        token.IsMaximal after := by
  intro token member
  obtain ⟨call, called, ofCall⟩ := mem_scan_tokens_iff.mp member
  obtain ⟨before, after, page, start, exact⟩ := Call.exists_isExact called token ofCall
  refine ⟨before, after, page, start, ?_⟩
  have ofKind {kind : Kind} (isKind : token.kind = kind) :
      IsExact call.cut.unterminated token.data after kind :=
    isKind ▸ exact
  constructor
  · intro isKind
    exact ofKind isKind
  · intro isWord
    exact exact.isMaximalName isWord
  · intro isWord
    exact exact.keyword_iff isWord
  · intro isKind
    exact (ofKind isKind).2
  · intro isKind
    exact ofKind isKind
  · intro isKind
    exact ofKind isKind
  · intro isKind
    exact ofKind isKind

/-- A keyword in mixed case, with an operator behind it that begins with another. -/
theorem scan_maximalMunch_keyword :
    let page := Bytes.ascii "<?= fN<<=$a"
    let token : Token :=
      ⟨.keyword ⟨Bytes.ascii "fn", by decide⟩, ⟨4, 6, 1, 5, {}⟩, Bytes.ascii "fN"⟩
    token ∈ (scan .text page {}).tokens ∧ ∃ before after,
      page = before ++ (token.data ++ after) ∧ token.span.start = before.length ∧
        token.IsMaximal after := by
  intro page token
  have member : token ∈ (scan .text page {}).tokens := by decide +kernel
  exact ⟨member, scan_maximalMunch .text page {} token member⟩

end PageScript
