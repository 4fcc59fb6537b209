import PageScript.Proofs.LexemeSeams
import PageScript.Proofs.Tiling

/-!
# Characters are not cut

Every token of a well-formed page is well formed, because every call takes its lexemes at
seams and leaves well-formed bytes for the next one.  The bytes before a token are then the
text of the tokens before it, so every token begins and ends between two characters.
-/

namespace PageScript

open Utf8 (IsSeam IsText isText_nil)

namespace Lexeme

/-- Every lexeme ends at a seam of the bytes that it is cut from. -/
inductive Parted : Bytes → List Lexeme → Prop where
  | nil {bytes : Bytes} : Parted bytes []
  | cons {bytes : Bytes} {lexeme : Lexeme} {rest : List Lexeme} :
      IsSeam (bytes.take lexeme.size) (bytes.drop lexeme.size) →
      Parted (bytes.drop lexeme.size) rest → Parted bytes (lexeme :: rest)

namespace Parted

variable {bytes : Bytes} {front back : List Lexeme}

theorem single {lexeme : Lexeme} (seam : IsSeam (bytes.take lexeme.size) (bytes.drop lexeme.size)) :
    Parted bytes [lexeme] :=
  .cons seam .nil

/-- A lexeme that takes the rest of the page ends at a seam. -/
theorem whole (kind : Kind) (bytes : Bytes) : Parted bytes [⟨kind, bytes.length⟩] := by
  refine single ?_
  rw [List.drop_length]
  exact .nil_right _

theorem append (first : Parted bytes front) (second : Parted (bytes.drop (totalSize front)) back) :
    Parted bytes (front ++ back) := by
  induction first with
  | nil => exact second
  | cons seam _ ih =>
      rw [totalSize_cons, ← List.drop_drop] at second
      exact .cons seam (ih second)

/-- Well-formed bytes are placed as well-formed tokens, and leave well-formed bytes. -/
theorem isText (parted : Parted bytes front) (valid : IsText bytes) (file : FileId)
    (behind : Bytes) :
    (∀ token ∈ place file behind bytes front, IsText token.data) ∧
      IsText (bytes.drop (totalSize front)) := by
  induction parted generalizing behind with
  | nil => exact ⟨by simp, valid⟩
  | @cons bytes lexeme rest seam _ ih =>
      rw [← List.take_append_drop lexeme.size bytes] at valid
      obtain ⟨taken, left⟩ := valid.split seam
      obtain ⟨tokens, leftLater⟩ := ih left (behind.readOn bytes lexeme.size)
      rw [totalSize_cons, ← List.drop_drop]
      exact ⟨List.forall_mem_cons.mpr ⟨taken, tokens⟩, leftLater⟩

end Parted

variable {enclosure : Enclosure} {text body rest : Bytes} {parts : List Lexeme}

/-- A run of text, if it is not empty, ends at its seam. -/
theorem bodyText_parted (seam : IsSeam text rest) :
    Parted (text ++ rest) (bodyText text.length) := by
  rw [bodyText]
  split
  · exact .nil
  · refine .single ?_
    rwa [List.take_left, List.drop_left]

theorem html_parted (seam : IsSeam text rest) : Parted (text ++ rest) (html text.length) := by
  rw [html]
  split
  · exact .nil
  · refine .single ?_
    rwa [List.take_left, List.drop_left]

theorem IsParts.parted (shape : IsParts enclosure body parts rest) :
    Parted (body ++ rest) parts := by
  induction shape with
  | text length => exact bodyText_parted (text_isSeam length)
  | @interpolated text sigiled body rest parts length isVariable stops _ ih =>
      have seam : IsSeam sigiled (body ++ rest) := .of_not_isNamePart stops sigiled
      rw [List.append_assoc, List.append_assoc]
      refine (bodyText_parted (text_isSeam length)).append ?_
      rw [totalSize_bodyText, List.drop_left]
      refine .cons ?_ ?_
      · rwa [List.take_left, List.drop_left]
      · rwa [List.drop_left]

theorem IsBody.parted {bytes : Bytes} {lexemes : List Lexeme} {closed : Bool}
    (shape : IsBody enclosure bytes lexemes closed) : Parted bytes lexemes := by
  cases shape with
  | cutOff shape => simpa using shape.parted
  | closed shape found =>
      refine shape.parted.append ?_
      rw [shape.totalSize_eq, List.drop_left]
      exact .single (terminator_isSeam found)

end Lexeme

namespace Mode

open Lexeme (Parted)

variable {bytes : Bytes} {cut : Cut}

theorem IsTextCut.parted (shape : IsTextCut bytes cut) : Parted bytes cut.lexemes := by
  cases shape with
  | @tagged text rest tag _ found =>
      refine (Lexeme.html_parted (Lexeme.isSeam_of_openTag? found text)).append ?_
      rw [Lexeme.totalSize_html, List.drop_left]
      exact .single (Lexeme.openTag?_isOpenTag found).isSeam
  | untagged => simpa using Lexeme.html_parted (IsSeam.nil_right bytes)

theorem cutBlockComment_parted {rest : Bytes}
    (opens : bytes = Byte.slash :: Byte.star :: rest) :
    Parted bytes (cutBlockComment bytes).lexemes := by
  subst opens
  rw [cutBlockComment]
  simp only
  split
  · next found => exact .single (Lexeme.blockComment_isSeam found)
  · exact .whole _ _

theorem cutSingleQuoted_parted (rest : Bytes) :
    Parted (Byte.singleQuote :: rest) (cutSingleQuoted (Byte.singleQuote :: rest)).lexemes := by
  rw [cutSingleQuoted]
  split
  · next found => exact .single (Lexeme.singleQuoted_isSeam found)
  · exact .whole _ _

theorem cutHeredoc_parted {first : UInt8} (small : first < 0x80) (rest : Bytes) :
    Parted (first :: rest) (cutHeredoc (first :: rest)).lexemes := by
  rw [cutHeredoc]
  split
  · exact .single (Lexeme.operator_isSeam small rest)
  · next header found =>
      obtain ⟨text, after, split, written, size⟩ := Heredoc.exists_isHeader found
      rw [size, split, List.drop_left]
      have seam : IsSeam ((text ++ after).take text.length) ((text ++ after).drop text.length) := by
        rw [List.take_left, List.drop_left]
        exact written.isSeam after
      split
      · next closing =>
          refine .cons seam (.single ?_)
          rw [List.drop_left]
          exact Heredoc.closingLine_isSeam closing
      · exact .single seam

theorem IsConstruct.parted (construct : IsConstruct bytes cut) : Parted bytes cut.lexemes := by
  cases construct with
  | finished => exact .nil
  | whitespace => exact .single (Bytes.asciiUpTo_runLength (fun _ => Byte.lt_of_isSpace) _).isSeam
  | closeTag opens =>
      subst opens
      exact .single (Lexeme.closeTag_isSeam _)
  | lineComment => exact .single (Lexeme.lineComment_isSeam _)
  | blockComment opens => exact cutBlockComment_parted opens
  | sigiled starts => exact .single (Lexeme.variable_isSeam starts)
  | number => exact .single (Lexeme.number_isSeam _)
  | singleQuoted => exact cutSingleQuoted_parted _
  | doubleQuote => exact .single (Bytes.AsciiUpTo.one (by decide) _).isSeam
  | backtick => exact .single (Bytes.AsciiUpTo.one (by decide) _).isSeam
  | name starts => exact .single (Lexeme.name_isSeam starts)
  | other _ _ noName => exact cutHeredoc_parted (Byte.lt_of_not_isNameStart noName) _

/-- What a mode takes ends at seams, on any bytes. -/
theorem cut_parted (mode : Mode) (bytes : Bytes) : Parted bytes (mode.cut bytes).lexemes := by
  cases mode with
  | text => exact (cutText_isTextCut bytes).parted
  | script => exact (cutScript_isConstruct bytes).parted
  | body enclosure =>
      have shape := cutBody_isBodyCut enclosure bytes
      rw [cut]
      generalize cutBody enclosure bytes = result at shape ⊢
      cases shape with
      | closed shape => exact shape.parted
      | cutOff shape => exact shape.parted

end Mode

/-- All tokens from a call on well-formed bytes on are well formed. -/
theorem Call.tokensOnward_isText {call : Call} (valid : IsText call.ahead) (file : FileId) :
    ∀ token ∈ call.tokensOnward file, IsText token.data := by
  induction call using onward_induction with
  | stop call stops =>
      obtain ⟨tokens, -⟩ := (Mode.cut_parted call.mode call.ahead).isText valid file call.behind
      rw [tokensOnward_of_stop file stops]
      exact tokens
  | next call mode goesOn ih =>
      obtain ⟨tokens, left⟩ := (Mode.cut_parted call.mode call.ahead).isText valid file call.behind
      rw [tokensOnward_of_next file goesOn]
      exact List.forall_mem_append.mpr ⟨tokens, ih left⟩

namespace Tiles

variable {file : FileId} {behind covered : Bytes} {tokens : List Token}

theorem isText (tiles : Tiles file behind covered tokens)
    (valid : ∀ token ∈ tokens, IsText token.data) : IsText covered := by
  induction tiles with
  | nil => exact isText_nil
  | cons _ _ ih =>
      obtain ⟨here, later⟩ := List.forall_mem_cons.mp valid
      exact here.append (ih later)

/-- Where the tokens of a page are well formed, each stands between well-formed bytes. -/
theorem exists_around (tiles : Tiles file behind covered tokens) (before : IsText behind.reverse)
    (valid : ∀ token ∈ tokens, IsText token.data) :
    ∀ token ∈ tokens, ∃ front back, behind.reverse ++ covered = front ++ (token.data ++ back) ∧
      IsText front ∧ IsText back ∧ token.span.start = front.length ∧
      token.span.stop = (front ++ token.data).length := by
  induction tiles with
  | nil => simp
  | @cons behind data covered kind tokens _ tiles ih =>
      obtain ⟨here, later⟩ := List.forall_mem_cons.mp valid
      have here : IsText data := here
      have read : IsText (data.reverse ++ behind).reverse := by
        simpa using before.append here
      intro token member
      rcases List.mem_cons.mp member with rfl | inRest
      · refine ⟨behind.reverse, covered, rfl, before, tiles.isText later, ?_, ?_⟩
        · simp [Token.after, Span.after]
        · simp [Token.after, Span.after]
      · simpa using ih read later token inRest

end Tiles

namespace Utf8

/-- An offset of a text between two of its characters, or at one of its ends. -/
def IsBoundary (text : String) (offset : Nat) : Prop :=
  ∃ front back, text = front ++ back ∧ (ofString front).length = offset

theorem isBoundary_of_isText {text : String} {front back : Bytes}
    (page : ofString text = front ++ back) (first : IsText front) (second : IsText back) :
    IsBoundary text front.length := by
  obtain ⟨before, rfl⟩ := first.exists_string
  obtain ⟨behind, rfl⟩ := second.exists_string
  rw [← ofString_append] at page
  exact ⟨before, behind, ofString_injective page, rfl⟩

end Utf8

/-- A token of a text: its bytes are well formed, its own text has the same bytes, and it
begins and ends between characters. -/
structure Token.IsWhole (text : String) (token : Token) : Prop where
  valid : Utf8.text? token.data = some token.text
  lossless : Utf8.ofString token.text = token.data
  start : Utf8.IsBoundary text token.span.start
  stop : Utf8.IsBoundary text token.span.stop

/-- Texts side by side have the bytes of the tokens side by side. -/
theorem ofString_join_text {tokens : List Token} (valid : ∀ token ∈ tokens, IsText token.data) :
    Utf8.ofString (String.join (tokens.map Token.text)) = tokens.flatMap (·.data) := by
  induction tokens with
  | nil => rfl
  | cons token tokens ih =>
      obtain ⟨here, later⟩ := List.forall_mem_cons.mp valid
      rw [List.map_cons, String.join_cons, Utf8.ofString_append, ih later, Token.text,
        here.ofString_lossy, List.flatMap_cons]

/-- No token of a well-formed page cuts a character in two, so the texts of the tokens are
lossless and side by side are the text of the page. -/
theorem scan_isWhole {bytes : Bytes} {text : String} (valid : Utf8.text? bytes = some text)
    (mode : Mode) (file : FileId) :
    let tokens := (scan mode bytes file).tokens
    (∀ token ∈ tokens, token.IsWhole text) ∧ String.join (tokens.map Token.text) = text := by
  intro tokens
  obtain rfl := Utf8.text?_eq_some_iff.mp valid
  have tiles := (Call.start mode (Utf8.ofString text)).tokensOnward_tiles file
  have whole := (Call.start mode (Utf8.ofString text)).tokensOnward_isText
    (Utf8.isText_ofString text) file
  rw [← scan_tokens mode (Utf8.ofString text) file] at tiles whole
  constructor
  · intro token member
    obtain ⟨front, back, page, first, second, start, stop⟩ :=
      tiles.exists_around isText_nil whole token member
    have lossless : Utf8.ofString token.text = token.data := (whole token member).ofString_lossy
    have page : Utf8.ofString text = front ++ (token.data ++ back) := page
    constructor
    · exact Utf8.text?_eq_some_iff.mpr lossless.symm
    · exact lossless
    · rw [start]
      exact Utf8.isBoundary_of_isText page first ((whole token member).append second)
    · rw [stop]
      rw [← List.append_assoc] at page
      exact Utf8.isBoundary_of_isText page (first.append (whole token member)) second
  · apply Utf8.ofString_injective
    rw [ofString_join_text whole]
    exact tiles.flatMap_data

/-- A heredoc whose label is outside of ASCII. -/
theorem scan_isWhole_heredoc :
    let text := "<?php <<<É\nñ$ö\nÉ;"
    let page := Utf8.ofString text
    let tokens := (scan .text page {}).tokens
    Utf8.text? page = some text ∧ (∀ token ∈ tokens, token.IsWhole text) ∧
      String.join (tokens.map Token.text) = text := by
  intro text page
  have valid : Utf8.text? page = some text := Utf8.text?_eq_some_iff.mpr rfl
  exact ⟨valid, scan_isWhole valid .text {}⟩

end PageScript
