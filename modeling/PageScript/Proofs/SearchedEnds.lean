import PageScript.Proofs.ExactPieces
import PageScript.Proofs.Resumption

/-!
# Searched ends

Text, line comments and block comments end where a search stops: each at the first place
where its end stands, and a block comment at the end of the page if it has none.  Nothing
that would have ended them is passed over.

A cut-off comment is the last token of its page, and it is told of: the scan warns about a
comment exactly if there is such a token, and names the place where it begins.
-/

namespace PageScript

/-- A comment, documenting or not. -/
def Kind.IsComment (kind : Kind) : Prop :=
  kind = .comment ∨ kind = .docComment

namespace Lexeme

open Bytes (IsFirstPlace)

theorem OpensLineComment.not_opensBlock {text : Bytes} (opens : OpensLineComment text) :
    ¬ Bytes.ascii "/*" <+: text := by
  intro block
  rcases opens with ⟨rest, rfl⟩ | ⟨rest, rfl⟩
  · have first : Byte.slash = Byte.hash := (List.cons_prefix_cons.mp block).1
    contradiction
  · have second : Byte.star = Byte.slash :=
      (List.cons_prefix_cons.mp (List.cons_prefix_cons.mp block).2).1
    contradiction

theorem StartsDoc.opensBlock {text : Bytes} (doc : StartsDoc text) :
    Bytes.ascii "/*" <+: text := by
  obtain ⟨space, rest, -, rfl⟩ := doc
  exact ⟨Byte.star :: space :: rest, rfl⟩

/-- A comment is of one of two forms, and only a block comment documents. -/
theorem IsExact.comment_cases {unterminated : Option Unterminated} {data after : Bytes}
    {kind : Kind} (exact : IsExact unterminated data after kind) (isComment : kind.IsComment) :
    (IsLineComment data after ∨ IsBlockComment unterminated data after) ∧
      (kind = .docComment ↔ StartsDoc data) := by
  rcases isComment with rfl | rfl
  · rcases exact with line | ⟨block, noDoc⟩
    · have noDoc : ¬ StartsDoc data := fun doc => line.opens.not_opensBlock doc.opensBlock
      exact ⟨.inl line, by simp [noDoc]⟩
    · exact ⟨.inr block, by simp [noDoc]⟩
  · obtain ⟨block, doc⟩ := exact
    exact ⟨.inr block, by simp [doc]⟩

end Lexeme

open Lexeme (IsExact)

/-- Where the token `token` stops, told from the bytes `after` behind it. -/
structure Token.StopsFirst (token : Token) (after : Bytes) : Prop where
  html :
    token.kind = .inlineHtml →
      Bytes.IsFirstPlace Lexeme.BeginsTag (token.data ++ after) token.data.length
  opens :
    token.kind.IsComment →
      Lexeme.OpensLineComment token.data ∨ Bytes.ascii "/*" <+: token.data
  lineComment :
    token.kind.IsComment → Lexeme.OpensLineComment token.data →
      Bytes.IsFirstPlace Lexeme.EndsLineComment (token.data ++ after) token.data.length
  /-- A block comment stops behind its closer, or where the page does. -/
  blockComment :
    token.kind.IsComment → Bytes.ascii "/*" <+: token.data →
      (∃ place, Lexeme.ClosesBlockAt (token.data ++ after) place ∧
        token.data.length = place + 2) ∨
      Lexeme.NeverCloses (token.data ++ after) ∧ after = []
  docComment_iff :
    token.kind.IsComment → (token.kind = .docComment ↔ Lexeme.StartsDoc token.data)

theorem Token.stopsFirst_of_isExact {unterminated : Option Unterminated} {token : Token}
    {after : Bytes} (exact : IsExact unterminated token.data after token.kind) :
    token.StopsFirst after := by
  constructor
  · intro isHtml
    rw [isHtml] at exact
    exact exact
  · intro isComment
    exact (exact.comment_cases isComment).1.imp (·.opens) (·.opens)
  · intro isComment opens
    rcases (exact.comment_cases isComment).1 with line | block
    · exact line.ends
    · exact absurd block.opens opens.not_opensBlock
  · intro isComment opens
    rcases (exact.comment_cases isComment).1 with line | block
    · exact absurd opens line.opens.not_opensBlock
    · cases block.ends with
      | closed closes length => exact .inl ⟨_, closes, length⟩
      | cutOff never atEnd =>
          subst atEnd
          rw [List.append_nil]
          exact .inr ⟨never, rfl⟩
  · intro isComment
    exact (exact.comment_cases isComment).2

/-! ### Open tags -/

/-- Tokens of text from an offset on: first what stands before the first open tag, if there
is anything, then the tag, and then those of the script behind it. -/
inductive ReadsText (offset : Nat) (bytes : Bytes) : List Token → Prop where
  | tagged {text later : List Token} {tag : Token} {size : Nat} :
      Bytes.IsFirstPlace Lexeme.BeginsTag bytes size → size < bytes.length →
      (∀ token ∈ text, token.kind = .inlineHtml) →
      text.flatMap (·.data) = bytes.take size →
      tag.kind = .openTag ∨ tag.kind = .echoTag → tag.span.start = offset + size →
      ReadsText offset bytes (text ++ tag :: later)
  | untagged {text : List Token} :
      (∀ place, ¬ Lexeme.BeginsTag (bytes.drop place)) →
      (∀ token ∈ text, token.kind = .inlineHtml) →
      text.flatMap (·.data) = bytes → ReadsText offset bytes text

theorem Lexeme.place_html_kind (file : FileId) (behind ahead : Bytes) (size : Nat) :
    ∀ token ∈ place file behind ahead (html size), token.kind = .inlineHtml := by
  rw [html]
  split <;> simp [place, Token.after]

/-- A call on text publishes what it passes over as one token, and the tag behind it. -/
theorem Call.readsText (file : FileId) (behind ahead : Bytes) :
    ReadsText behind.length ahead ((Call.mk .text behind ahead).tokensOnward file) := by
  have shape := Mode.cutText_isTextCut ahead
  generalize cut : Mode.cutText ahead = taken at shape
  cases shape with
  | @tagged text rest tag first found =>
      have goesOn : (Call.mk .text behind (text ++ rest)).cut.next = some .script := by
        rw [Call.cut, Mode.cut, cut]
      rw [Call.tokensOnward_of_next file goesOn, Call.tokens, Call.cut, Mode.cut, cut,
        Lexeme.place_append, List.append_assoc]
      have fits := Lexeme.openTag?_fits found
      refine .tagged first ?_ (Lexeme.place_html_kind _ _ _ _) ?_ ?_ ?_
      · rw [List.length_append]
        exact Nat.lt_add_of_pos_right (Nat.lt_of_lt_of_le fits.positive fits.size_le)
      · rw [Lexeme.flatMap_data_place, Lexeme.totalSize_html]
      · cases Lexeme.openTag?_isOpenTag found <;> simp [Token.after]
      · simp [Token.after, Span.after, Nat.add_comm]
  | untagged nowhere =>
      have stops : (Call.mk .text behind ahead).cut.next = none := by
        rw [Call.cut, Mode.cut, cut]
      rw [Call.tokensOnward_of_stop file stops, Call.tokens, Call.cut, Mode.cut, cut]
      refine .untagged nowhere (Lexeme.place_html_kind _ _ _ _) ?_
      rw [Lexeme.flatMap_data_place, Lexeme.totalSize_html, List.take_length]

/-! ### Cut-off comments -/

namespace Mode

variable {bytes : Bytes} {cut : Cut} {construct : Unterminated}

/-- A comment without a closer takes all bytes left, and warns. -/
structure IsCutOffComment (bytes : Bytes) (cut : Cut) : Prop where
  opens : Bytes.ascii "/*" <+: bytes
  neverCloses : Lexeme.NeverCloses bytes
  cut_eq :
    cut = { Cut.one (Lexeme.blockCommentKind bytes) bytes.length with
      unterminated := some .comment }

theorem cutBlockComment_isCutOff (opens : Bytes.ascii "/*" <+: bytes)
    (warns : (cutBlockComment bytes).unterminated = some construct) :
    construct = .comment ∧ IsCutOffComment bytes (cutBlockComment bytes) := by
  rw [cutBlockComment] at warns ⊢
  simp only at warns ⊢
  split at warns
  · contradiction
  · next missing =>
      cases warns
      exact ⟨rfl, opens, Lexeme.neverCloses_of_blockCommentLength? missing, rfl⟩

theorem cutHeredoc_unterminated (bytes : Bytes) : (cutHeredoc bytes).unterminated = none := by
  rw [cutHeredoc]
  split
  · rfl
  · split <;> rfl

/-- A construct of a script that the end of the page cuts off is a comment, or it ends the
scan. -/
theorem IsConstruct.cutOff_cases (shape : IsConstruct bytes cut)
    (warns : cut.unterminated = some construct) :
    construct = .comment ∧ IsCutOffComment bytes cut ∨
      construct ≠ .comment ∧ cut.next = none := by
  cases shape with
  | blockComment opens =>
      exact .inl (cutBlockComment_isCutOff ⟨_, opens.symm⟩ warns)
  | singleQuoted =>
      right
      rw [cutSingleQuoted] at warns ⊢
      split at warns
      · contradiction
      · cases warns
        exact ⟨by simp, rfl⟩
  | other =>
      rw [cutHeredoc_unterminated] at warns
      contradiction
  | _ => contradiction

theorem cut_cutOff_cases {mode : Mode} (warns : (mode.cut bytes).unterminated = some construct) :
    construct = .comment ∧ IsCutOffComment bytes (mode.cut bytes) ∨
      construct ≠ .comment ∧ (mode.cut bytes).next = none := by
  cases mode with
  | text =>
      have shape := cutText_isTextCut bytes
      rw [cut] at warns
      generalize cutText bytes = taken at shape warns
      cases shape <;> contradiction
  | script => exact (cutScript_isConstruct bytes).cutOff_cases warns
  | body enclosure =>
      have shape := cutBody_isBodyCut enclosure bytes
      rw [cut] at warns ⊢
      generalize cutBody enclosure bytes = taken at shape warns ⊢
      cases shape with
      | closed => contradiction
      | cutOff =>
          cases warns
          exact .inr ⟨by simp, rfl⟩

end Mode

namespace Call

variable {call : Call} {file : FileId}

theorem tokens_of_cutOff (cutOff : Mode.IsCutOffComment call.ahead call.cut) :
    call.tokens file =
      [.after file call.behind (Lexeme.blockCommentKind call.ahead) call.ahead] := by
  rw [tokens, cutOff.cut_eq, Cut.one, Lexeme.place, Lexeme.place, List.take_length]

/-- A call warns about a comment if it is cut off, and names the place where it begins. -/
theorem warning?_eq_comment_iff {line column : UInt32} (size : Nat) :
    call.warning? = some (.comment line column) ↔
      Mode.IsCutOffComment call.ahead call.cut ∧
        (Span.after file call.behind size).line = line ∧
        (Span.after file call.behind size).column = column := by
  rw [warning?, Cursor.between, Cursor.column_holding]
  constructor
  · intro warns
    obtain ⟨construct, cutOff, warning⟩ := Option.map_eq_some_iff.mp warns
    rcases Mode.cut_cutOff_cases cutOff with ⟨rfl, comment⟩ | ⟨other, -⟩
    · obtain ⟨sameLine, sameColumn⟩ := Warning.comment.inj warning
      exact ⟨comment, sameLine, sameColumn⟩
    · cases construct <;> contradiction
  · rintro ⟨comment, rfl, rfl⟩
    rw [comment.cut_eq]
    rfl

/-- Behind a cut-off comment nothing is left to warn about. -/
theorem warningsOnward_onward_of_cutOff {mode : Mode} (goesOn : call.cut.next = some mode)
    (cutOff : Mode.IsCutOffComment call.ahead call.cut) :
    (call.onward mode).warningsOnward = [] := by
  rw [cutOff.cut_eq] at goesOn
  cases goesOn
  have whole : call.size = call.ahead.length := by
    rw [size, cutOff.cut_eq]
    rfl
  have stop : (call.onward .script).cut = .stop := by
    rw [onward, whole, List.drop_length]
    rfl
  rw [warningsOnward_of_stop (congrArg Cut.next stop), warning?, stop]
  rfl

/-- A call that warns is the last one that does: it stops, or leaves nothing. -/
theorem warningsOnward_length_le (call : Call) : call.warningsOnward.length ≤ 1 := by
  induction call using onward_induction with
  | stop call stops =>
      rw [warningsOnward_of_stop stops]
      exact Option.length_toList_le
  | next call mode goesOn ih =>
      rw [warningsOnward_of_next goesOn]
      cases warns : call.cut.unterminated with
      | none => simpa [warning?, warns] using ih
      | some construct =>
          rcases Mode.cut_cutOff_cases warns with ⟨-, comment⟩ | ⟨-, stops⟩
          · rw [warningsOnward_onward_of_cutOff goesOn comment, List.append_nil]
            exact Option.length_toList_le
          · rw [cut, stops] at goesOn
            contradiction

end Call

/-- A token that is a block comment, in a page where no closer follows its opener. -/
structure Token.IsCutOffComment (token : Token) (bytes : Bytes) : Prop where
  isComment : token.kind.IsComment
  opens : Bytes.ascii "/*" <+: token.data
  neverCloses : Lexeme.NeverCloses (bytes.drop token.span.start)

variable {mode : Mode} {bytes : Bytes} {file : FileId}

/-- The bytes left to a call are those of the page from it on. -/
theorem Call.drop_of_mem_trace {call : Call} (called : call ∈ (Call.start mode bytes).trace) :
    bytes.drop call.behind.length = call.ahead := by
  have page : call.behind.reverse ++ call.ahead = bytes := page_of_mem_trace called
  rw [← page, ← List.length_reverse, List.drop_left]

/-- A call that publishes a cut-off comment is one that is cut off, and publishes no more. -/
theorem Call.isCutOffComment_of_mem {call : Call} {token : Token}
    (called : call ∈ (Call.start mode bytes).trace) (ofCall : token ∈ call.tokens file)
    (cutOff : token.IsCutOffComment bytes) : Mode.IsCutOffComment call.ahead call.cut := by
  obtain ⟨before, after, page, start, exact⟩ := Call.exists_isExact called token ofCall
  have never := cutOff.neverCloses
  rw [start, page, List.drop_left] at never
  rcases (exact.comment_cases cutOff.isComment).1 with line | block
  · exact absurd cutOff.opens line.opens.not_opensBlock
  · cases block.ends with
    | closed closes _ => exact absurd closes.closer (never _ closes.behindOpener)
    | cutOff _ _ warns =>
        rcases Mode.cut_cutOff_cases warns with ⟨-, comment⟩ | ⟨other, -⟩
        · exact comment
        · contradiction

/-- The scan warns about a comment exactly if there is one that is cut off, and says where it
begins. -/
theorem comment_mem_warnings_iff {line column : UInt32} :
    Warning.comment line column ∈ (scan mode bytes file).warnings ↔
      ∃ token ∈ (scan mode bytes file).tokens, token.IsCutOffComment bytes ∧
        token.span.line = line ∧ token.span.column = column := by
  rw [scan_warnings, Call.warningsOnward, List.mem_filterMap]
  constructor
  · rintro ⟨call, called, warns⟩
    obtain ⟨comment, atLine, atColumn⟩ := (Call.warning?_eq_comment_iff call.ahead.length).mp warns
    refine ⟨.after file call.behind (Lexeme.blockCommentKind call.ahead) call.ahead, ?_,
      ⟨?_, comment.opens, ?_⟩, atLine, atColumn⟩
    · apply mem_scan_tokens_iff.mpr
      refine ⟨call, called, ?_⟩
      rw [Call.tokens_of_cutOff comment]
      exact List.mem_singleton_self _
    · exact Lexeme.blockCommentKind_eq call.ahead
    · have left : bytes.drop call.behind.length = call.ahead := Call.drop_of_mem_trace called
      exact left.symm ▸ comment.neverCloses
  · rintro ⟨token, member, cutOff, atLine, atColumn⟩
    obtain ⟨call, called, ofCall⟩ := mem_scan_tokens_iff.mp member
    have comment := Call.isCutOffComment_of_mem called ofCall cutOff
    rw [Call.tokens_of_cutOff comment] at ofCall
    obtain rfl := List.mem_singleton.mp ofCall
    exact ⟨call, called, (Call.warning?_eq_comment_iff _).mpr ⟨comment, atLine, atColumn⟩⟩

/-- What is delimited by a search stops at the first possible place.  No open tag is passed
over, and of the comments just one that is cut off is warned about. -/
theorem scan_stopsFirst (mode : Mode) (bytes : Bytes) (file : FileId) :
    let run := scan mode bytes file
    (∀ token ∈ run.tokens, ∃ before after, bytes = before ++ (token.data ++ after) ∧
      token.span.start = before.length ∧ token.StopsFirst after) ∧
    (∀ before, Mode.grammar.Calls mode (Scanner.ofBytes bytes file) .text before →
      ∃ tokens, run.tokens = before.tokens ++ tokens ∧
        ReadsText before.cursor.offset (bytes.drop before.cursor.offset) tokens) ∧
    (∀ line column, Warning.comment line column ∈ run.warnings ↔
      ∃ token ∈ run.tokens, token.IsCutOffComment bytes ∧ token.span.line = line ∧
        token.span.column = column) ∧
    run.warnings.length ≤ 1 := by
  intro run
  refine ⟨?_, ?_, ?_, ?_⟩
  · intro token member
    obtain ⟨call, called, ofCall⟩ := mem_scan_tokens_iff.mp member
    obtain ⟨before, after, page, start, exact⟩ := Call.exists_isExact called token ofCall
    exact ⟨before, after, page, start, Token.stopsFirst_of_isExact exact⟩
  · intro before called
    obtain ⟨behind, offset, scanned⟩ := Mode.exists_onward_of_calls called
    refine ⟨_, scanned, ?_⟩
    rw [offset]
    exact Call.readsText file behind _
  · intro line column
    exact comment_mem_warnings_iff
  · rw [show run.warnings = _ from scan_warnings mode bytes file]
    exact (Call.start mode bytes).warningsOnward_length_le

/-- A comment behind a tag and a line break, with no closer but one that its opener holds. -/
theorem scan_stopsFirst_cutOff :
    let page := Bytes.ascii "a<?php\n/*/"
    let run := scan .text page {}
    let token : Token := ⟨.comment, ⟨7, 10, 2, 1, {}⟩, Bytes.ascii "/*/"⟩
    token ∈ run.tokens ∧ token.IsCutOffComment page ∧ .comment 2 1 ∈ run.warnings := by
  intro page run token
  have member : token ∈ run.tokens := by decide +kernel
  have never : Lexeme.NeverCloses (Bytes.ascii "/*/") :=
    Lexeme.neverCloses_of_blockCommentLength? (by decide)
  have cutOff : token.IsCutOffComment page := ⟨.inl rfl, ⟨[Byte.slash], rfl⟩, never⟩
  have told := (scan_stopsFirst .text page {}).2.2.1 2 1
  exact ⟨member, cutOff, told.mpr ⟨token, member, cutOff, rfl, rfl⟩⟩

end PageScript
