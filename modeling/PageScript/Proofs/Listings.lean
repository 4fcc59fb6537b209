import PageScript.Listing.Tokens
import PageScript.Proofs.CharacterBoundaries
import PageScript.Proofs.Decimals
import PageScript.Proofs.QuotedText

/-!
# What a listing says about a page

A plain listing has one line for each token.  What stands in a line before the quoted text
of the token has no quote in it, and nothing in the line breaks it, so the lines of a listing
and the texts in them are found again.  The texts of the tokens of a well-formed page, side
by side, are the page: so its listing is the listing of no other page.
-/

namespace PageScript

/-- What stands before the first `mark` ends there, and so does what follows it begin. -/
theorem eq_of_append_cons {α : Type} {mark : α} {front other : List α} {rest more : List α}
    (absent : mark ∉ front) (missing : mark ∉ other)
    (same : front ++ mark :: rest = other ++ mark :: more) : front = other ∧ rest = more := by
  induction front generalizing other with
  | nil =>
      cases other with
      | nil => simpa using same
      | cons first other =>
          rw [List.nil_append, List.cons_append, List.cons_eq_cons] at same
          exact absurd (same.1 ▸ List.mem_cons_self) missing
  | cons first front ih =>
      cases other with
      | nil =>
          rw [List.nil_append, List.cons_append, List.cons_eq_cons] at same
          exact absurd (same.1 ▸ List.mem_cons_self) absent
      | cons second other =>
          rw [List.cons_append, List.cons_append, List.cons_eq_cons] at same
          obtain ⟨rfl, same⟩ := same
          obtain ⟨rfl, rest⟩ := ih (fun member => absent (List.mem_cons_of_mem _ member))
            (fun member => missing (List.mem_cons_of_mem _ member)) same
          exact ⟨rfl, rest⟩

namespace Kind

/-- The names of kinds are made of letters and underscores. -/
theorem not_mem_listedName {char : Char} (breaks : char = '"' ∨ char = '\n') (kind : Kind) :
    char ∉ kind.listedName.toList := by
  have words : ∀ spelling ∈ Keyword.reserved,
      '"' ∉ ("T_" ++ Keyword.textOf (spelling.map Byte.toUpper)).toList ∧
        '\n' ∉ ("T_" ++ Keyword.textOf (spelling.map Byte.toUpper)).toList := by
    decide +kernel
  rcases breaks with rfl | rfl
  · cases kind with
    | keyword word => exact (words word.spelling word.isReserved).1
    | _ => decide
  · cases kind with
    | keyword word => exact (words word.spelling word.isReserved).2
    | _ => decide

end Kind

namespace Listing

/-- What stands in the line of a token before its quoted text. -/
def lineHead (token : Token) : List Char :=
  token.span.position.toList ++ ' ' :: token.kind.listedName.toList ++ [' ']

/-- The line of a token without its line break. -/
def lineRow (token : Token) : List Char :=
  lineHead token ++ (Text.quoted token.text).toList

theorem not_mem_lineHead {char : Char} (breaks : char = '"' ∨ char = '\n') (token : Token) :
    char ∉ lineHead token := by
  obtain ⟨noDigit, noColon, noBlank⟩ : ¬ char.isDigit ∧ char ≠ ':' ∧ char ≠ ' ' := by
    rcases breaks with rfl | rfl <;> decide
  simp [lineHead, Text.not_mem_position noDigit noColon, Kind.not_mem_listedName breaks, noBlank]

theorem lineFeed_not_mem_lineRow (token : Token) : '\n' ∉ lineRow token := by
  rw [lineRow, List.mem_append, not_or]
  exact ⟨not_mem_lineHead (.inr rfl) token, Text.lineFeed_not_mem_quoted _⟩

theorem toList_tokenLine (token : Token) : (tokenLine token).toList = lineRow token ++ ['\n'] := by
  simp [tokenLine, Token.summary, lineRow, lineHead]

/-- The text of a token is found in its line, behind the first quote. -/
theorem text_eq_of_lineRow {token other : Token} (same : lineRow token = lineRow other) :
    token.text = other.text := by
  rw [lineRow, lineRow, Text.toList_quoted, Text.toList_quoted] at same
  obtain ⟨-, body⟩ := eq_of_append_cons (not_mem_lineHead (.inl rfl) token)
    (not_mem_lineHead (.inl rfl) other) same
  apply Text.quoted_injective
  rw [← String.toList_inj, Text.toList_quoted, Text.toList_quoted, body]

theorem toList_tokens_cons (token : Token) (all : List Token) :
    (tokens .text (token :: all)).toList = lineRow token ++ '\n' :: (tokens .text all).toList := by
  simp [tokens, toList_tokenLine]

/-- The lines of a listing come apart, and the texts of the tokens with them. -/
theorem texts_eq_of_tokens {all others : List Token}
    (same : tokens .text all = tokens .text others) :
    all.map Token.text = others.map Token.text := by
  replace same := congrArg String.toList same
  induction all generalizing others with
  | nil =>
      cases others with
      | nil => rfl
      | cons other others =>
          rw [toList_tokens_cons] at same
          simp [tokens] at same
  | cons token all ih =>
      cases others with
      | nil =>
          rw [toList_tokens_cons] at same
          simp [tokens] at same
      | cons other others =>
          rw [toList_tokens_cons, toList_tokens_cons] at same
          obtain ⟨row, later⟩ := eq_of_append_cons (lineFeed_not_mem_lineRow token)
            (lineFeed_not_mem_lineRow other) same
          rw [List.map_cons, List.map_cons, text_eq_of_lineRow row, ih later]

theorem count_lineFeed_tokens (all : List Token) :
    (tokens .text all).toList.count '\n' = all.length := by
  induction all with
  | nil => rfl
  | cons token all ih =>
      have row : (lineRow token).count '\n' = 0 :=
        List.count_eq_zero.mpr (lineFeed_not_mem_lineRow token)
      rw [toList_tokens_cons, List.count_append, List.count_cons_self, row, ih, List.length_cons,
        Nat.zero_add]

/-- Two well-formed pages with the same listing are the same, however they are scanned.  A
listing has one line for each token. -/
theorem tokens_lossless :
    (∀ {page other : Bytes} {text otherText : String},
      Utf8.text? page = some text → Utf8.text? other = some otherText →
      ∀ mode otherMode file otherFile,
        tokens .text (scan mode page file).tokens =
          tokens .text (scan otherMode other otherFile).tokens → page = other) ∧
    ∀ all, (tokens .text all).toList.count '\n' = all.length := by
  refine ⟨?_, count_lineFeed_tokens⟩
  have bytes {page : Bytes} {text : String} (valid : Utf8.text? page = some text) (mode : Mode)
      (file : FileId) : Utf8.ofString (String.join ((scan mode page file).tokens.map Token.text)) =
        page := by
    obtain rfl := Utf8.text?_eq_some_iff.mp valid
    rw [scan_tokens, ofString_join_text]
    · exact ((Call.start mode (Utf8.ofString text)).tokensOnward_tiles file).flatMap_data
    · exact (Call.start mode (Utf8.ofString text)).tokensOnward_isText (Utf8.isText_ofString text)
        file
  intro page other text otherText valid otherValid mode otherMode file otherFile same
  rw [← bytes valid mode file, texts_eq_of_tokens same, bytes otherValid]

/-- A string that holds a quote, a backslash and a line break, listed for two files. -/
theorem tokens_lossless_escaped :
    let text := "<?php '\"\\\n'"
    let page := Bytes.ascii text
    let other := Utf8.ofString text
    let listing := tokens .text (scan .text page ⟨0⟩).tokens
    Utf8.text? page = some text ∧ Utf8.text? other = some text ∧
      listing = tokens .text (scan .text other ⟨1⟩).tokens ∧ page = other ∧
      listing.toList.count '\n' = 2 := by
  intro text page other listing
  obtain ⟨lossless, lines⟩ := tokens_lossless
  have valid : Utf8.text? page = some text := by decide +kernel
  have otherValid : Utf8.text? other = some text := Utf8.text?_eq_some_iff.mpr rfl
  have same : listing = tokens .text (scan .text other ⟨1⟩).tokens := by decide +kernel
  have two : (scan .text page ⟨0⟩).tokens.length = 2 := by decide +kernel
  refine ⟨valid, otherValid, same, ?_, (lines _).trans two⟩
  exact lossless valid otherValid .text .text ⟨0⟩ ⟨1⟩ same

end Listing

end PageScript
