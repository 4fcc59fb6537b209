import PageScript.Proofs.BodyShape
import PageScript.Proofs.FirstPlaces

/-!
# The shape of a cut

What a call takes from the front is one of a few things.  `Mode.IsTextCut` and
`Mode.IsScriptCut` list them, with what is known about the bytes in each case, and
what every cut has in common is read off from the lists.
-/

namespace PageScript

namespace Kind

/-- The kinds of tokens that stand in a script and neither open nor end anything. -/
def isPlain : Kind → Bool
  | .whitespace | .comment | .docComment | .variable | .name | .keyword _ | .integer
  | .decimal | .operator => true
  | _ => false

theorem isPlain_ofName (name : Bytes) : (ofName name).isPlain := by
  rw [ofName]
  split <;> rfl

end Kind

namespace Lexeme

@[simp] theorem totalSize_html (size : Nat) : totalSize (html size) = size := by
  rw [html]
  split
  · next zero => simp [zero]
  · simp

theorem html_positive {size : Nat} : ∀ lexeme ∈ html size, 0 < lexeme.size := by
  rw [html]
  split
  · simp
  · next nonzero => simpa using Nat.pos_of_ne_zero nonzero

theorem blockCommentKind_isPlain (bytes : Bytes) : (blockCommentKind bytes).isPlain := by
  rcases blockCommentKind_eq bytes with kind | kind <;> rw [kind] <;> rfl

theorem number_kind (bytes : Bytes) :
    (number bytes).kind = .integer ∨ (number bytes).kind = .decimal := by
  unfold number decimalNumber
  split
  · exact .inl rfl
  · simp only
    split
    · exact .inr rfl
    · split <;> simp

theorem number_kind_isPlain (bytes : Bytes) : (number bytes).kind.isPlain := by
  rcases number_kind bytes with kind | kind <;> rw [kind] <;> rfl

end Lexeme

namespace Mode

open Lexeme (Fits)

/-- What a call takes from text. -/
inductive IsTextCut : Bytes → Cut → Prop where
  | tagged {text rest : Bytes} {tag : Lexeme} :
      Bytes.IsFirstPlace Lexeme.BeginsTag (text ++ rest) text.length →
      Lexeme.openTag? rest = some tag →
      IsTextCut (text ++ rest)
        { lexemes := Lexeme.html text.length ++ [tag], next := some .script }
  | untagged {text : Bytes} :
      (∀ place, ¬ Lexeme.BeginsTag (text.drop place)) →
      IsTextCut text { lexemes := Lexeme.html text.length, next := none }

/-- What a call takes from a script. -/
inductive IsScriptCut : Bytes → Cut → Prop where
  | finished : IsScriptCut [] .stop
  /-- A token that neither opens nor ends anything. -/
  | plain {bytes : Bytes} {kind : Kind} {size : Nat} :
      kind.isPlain → Fits ⟨kind, size⟩ bytes → IsScriptCut bytes (.one kind size)
  /-- A single character other than a quote. -/
  | char {byte : UInt8} {rest : Bytes} :
      byte ≠ Byte.doubleQuote → byte ≠ Byte.backtick →
      IsScriptCut (byte :: rest) (.one .char 1)
  | closeTag {bytes : Bytes} {size : Nat} :
      Fits ⟨.closeTag, size⟩ bytes →
      IsScriptCut bytes { lexemes := [⟨.closeTag, size⟩], next := some .text }
  | cutOffComment {bytes : Bytes} {kind : Kind} :
      kind.isPlain → bytes ≠ [] →
      IsScriptCut bytes
        { Cut.one kind bytes.length with unterminated := some .comment }
  | singleQuoted {body rest : Bytes} :
      IsScriptCut (Byte.singleQuote :: body ++ Byte.singleQuote :: rest)
        (.one .singleQuoted (body.length + 2))
  | cutOffQuote {rest : Bytes} :
      IsScriptCut (Byte.singleQuote :: rest)
        { lexemes := [⟨.invalid, rest.length + 1⟩]
          unterminated := some .singleQuoted
          next := none }
  | doubleQuote {rest : Bytes} :
      IsScriptCut (Byte.doubleQuote :: rest)
        { lexemes := [⟨.char, 1⟩], next := some (.body .doubleQuote) }
  | backtick {rest : Bytes} :
      IsScriptCut (Byte.backtick :: rest)
        { lexemes := [⟨.char, 1⟩], next := some (.body .backtick) }
  /-- A heredoc that is closed on its first line. -/
  | closedHeredoc {text label rest : Bytes} {size : Nat} :
      Heredoc.IsHeader text label → Heredoc.closingLength? label rest = some size →
      IsScriptCut (text ++ rest)
        { lexemes := [⟨.heredocStart, text.length⟩, ⟨.heredocEnd, size⟩]
          next := some .script }
  | heredoc {text label rest : Bytes} :
      Heredoc.IsHeader text label → Heredoc.closingLength? label rest = none →
      IsScriptCut (text ++ rest)
        { lexemes := [⟨.heredocStart, text.length⟩]
          next := some (.body (.heredoc label)) }

/-- What a call takes from the body of a string. -/
inductive IsBodyCut (enclosure : Enclosure) : Bytes → Cut → Prop where
  | closed {bytes : Bytes} {lexemes : List Lexeme} :
      Lexeme.IsBody enclosure bytes lexemes true →
      IsBodyCut enclosure bytes { lexemes, next := some .script }
  | cutOff {bytes : Bytes} {lexemes : List Lexeme} :
      Lexeme.IsBody enclosure bytes lexemes false →
      IsBodyCut enclosure bytes
        { lexemes, unterminated := some (.body enclosure), next := none }

/-- The constructs of a script, each told by the bytes that it begins with, and the call
that cuts it. -/
inductive IsConstruct : Bytes → Cut → Prop where
  | finished : IsConstruct [] .stop
  | whitespace {bytes : Bytes} :
      bytes.startsWhere Byte.isSpace →
      IsConstruct bytes (.one .whitespace (Bytes.runLength Byte.isSpace bytes))
  | closeTag {bytes rest : Bytes} :
      bytes = Byte.question :: Byte.greater :: rest →
      IsConstruct bytes
        { lexemes := [⟨.closeTag, Lexeme.closeTagLength bytes⟩], next := some .text }
  | lineComment {first : UInt8} {rest : Bytes} :
      first = Byte.hash ∨ first = Byte.slash ∧ rest.startsWhere (· == Byte.slash) →
      IsConstruct (first :: rest) (.one .comment (Lexeme.lineCommentLength (first :: rest)))
  | blockComment {bytes rest : Bytes} :
      bytes = Byte.slash :: Byte.star :: rest → IsConstruct bytes (cutBlockComment bytes)
  | sigiled {bytes : Bytes} :
      Lexeme.startsVariable bytes →
      IsConstruct bytes (.one .variable (Lexeme.variableLength bytes))
  | number {bytes : Bytes} :
      Lexeme.StartsNumber bytes →
      IsConstruct bytes { lexemes := [Lexeme.number bytes], next := some .script }
  | singleQuoted {rest : Bytes} :
      IsConstruct (Byte.singleQuote :: rest) (cutSingleQuoted (Byte.singleQuote :: rest))
  | doubleQuote {rest : Bytes} :
      IsConstruct (Byte.doubleQuote :: rest)
        { lexemes := [⟨.char, 1⟩], next := some (.body .doubleQuote) }
  | backtick {rest : Bytes} :
      IsConstruct (Byte.backtick :: rest)
        { lexemes := [⟨.char, 1⟩], next := some (.body .backtick) }
  | name {bytes : Bytes} :
      bytes.startsWhere Byte.isNameStart →
      IsConstruct bytes
        (.one (Kind.ofName (bytes.take (Bytes.nameLength bytes))) (Bytes.nameLength bytes))
  /-- A heredoc, an operator or a single character. -/
  | other {first : UInt8} {rest : Bytes} :
      first ≠ Byte.doubleQuote → first ≠ Byte.backtick → ¬ Byte.isNameStart first →
      IsConstruct (first :: rest) (cutHeredoc (first :: rest))

/-- The order of the cases is that of the dispatch on the first bytes. -/
theorem cutScript_isConstruct (bytes : Bytes) : IsConstruct bytes (cutScript bytes) := by
  cases bytes with
  | nil => exact .finished
  | cons first rest =>
      simp only [cutScript]
      refine iteInduction (motive := IsConstruct _) (fun space => ?_) fun _ => ?_
      · exact .whitespace space
      refine iteInduction (motive := IsConstruct _) (fun closes => ?_) fun _ => ?_
      · simp only [Bool.and_eq_true, decide_eq_true_eq] at closes
        obtain ⟨rfl, second⟩ := closes
        obtain ⟨greater, rest, rfl, same⟩ := Bytes.exists_cons_of_startsWhere second
        rw [beq_iff_eq.mp same]
        exact .closeTag rfl
      refine iteInduction (motive := IsConstruct _) (fun comment => ?_) fun _ => ?_
      · simp only [Bool.or_eq_true, Bool.and_eq_true, decide_eq_true_eq] at comment
        exact .lineComment comment
      refine iteInduction (motive := IsConstruct _) (fun opens => ?_) fun _ => ?_
      · simp only [Bool.and_eq_true, decide_eq_true_eq] at opens
        obtain ⟨rfl, second⟩ := opens
        obtain ⟨star, rest, rfl, same⟩ := Bytes.exists_cons_of_startsWhere second
        rw [beq_iff_eq.mp same]
        exact .blockComment rfl
      refine iteInduction (motive := IsConstruct _) (fun starts => ?_) fun _ => ?_
      · exact .sigiled starts
      refine iteInduction (motive := IsConstruct _) (fun digits => ?_) fun _ => ?_
      · simp only [Bool.or_eq_true, Bool.and_eq_true, decide_eq_true_eq] at digits
        exact .number (digits.imp id fun dotted => ⟨rest, by rw [dotted.1], dotted.2⟩)
      refine iteInduction (motive := IsConstruct _) (fun single => ?_) fun _ => ?_
      · subst single
        exact .singleQuoted
      refine iteInduction (motive := IsConstruct _) (fun double => ?_) fun notDouble => ?_
      · subst double
        exact .doubleQuote
      refine iteInduction (motive := IsConstruct _) (fun backtick => ?_) fun notBacktick => ?_
      · subst backtick
        exact .backtick
      refine iteInduction (motive := IsConstruct _) (fun starts => ?_) fun noName => ?_
      · exact .name starts
      · exact .other notDouble notBacktick noName

theorem cutText_isTextCut (bytes : Bytes) : IsTextCut bytes (cutText bytes) := by
  rw [cutText]
  cases search : Lexeme.firstTag? bytes 0 with
  | none => exact .untagged (Lexeme.firstTag?_eq_none (.zero bytes) search)
  | some found =>
      obtain ⟨offset, tag⟩ := found
      obtain ⟨first, isTag⟩ := Lexeme.firstTag?_eq_some (.zero bytes) search
      have split := List.take_append_drop offset bytes
      have length := List.length_take_of_le first.size_le
      generalize bytes.take offset = text at split length
      generalize bytes.drop offset = rest at split isTag
      subst split length
      exact .tagged first isTag

/-- A page that begins with an open tag and a blank. -/
theorem cutText_openTag (rest : Bytes) :
    cutText (Bytes.ascii "<?php " ++ rest) =
      { lexemes := [⟨.openTag, 6⟩], next := some .script } := by
  rw [cutText, Lexeme.firstTag?_eq]
  rfl

theorem cutOperator_isScriptCut {byte : UInt8} {rest : Bytes}
    (notDouble : byte ≠ Byte.doubleQuote) (notBacktick : byte ≠ Byte.backtick) :
    IsScriptCut (byte :: rest) (cutOperator (byte :: rest)) := by
  have fits := Lexeme.operator_fits (List.cons_ne_nil byte rest)
  rw [cutOperator]
  rw [Lexeme.operator] at fits ⊢
  split
  · next found =>
      simp only [found] at fits
      exact .plain rfl fits
  · exact .char notDouble notBacktick

theorem cutBlockComment_isScriptCut {bytes : Bytes} (nonempty : bytes ≠ []) :
    IsScriptCut bytes (cutBlockComment bytes) := by
  have plain := Lexeme.blockCommentKind_isPlain bytes
  rw [cutBlockComment]
  simp only
  split
  · next size found =>
      have fits := Lexeme.blockCommentLength?_le found
      exact .plain plain ⟨by simp only; omega, fits.2⟩
  · exact .cutOffComment plain nonempty

theorem cutSingleQuoted_isScriptCut (rest : Bytes) :
    IsScriptCut (Byte.singleQuote :: rest) (cutSingleQuoted (Byte.singleQuote :: rest)) := by
  rw [cutSingleQuoted]
  rw [List.drop_succ_cons, List.drop_zero]
  split
  · next size found =>
      obtain ⟨body, after, rfl, rfl⟩ := Lexeme.exists_closing_singleQuote found
      exact .singleQuoted
  · exact .cutOffQuote

theorem cutHeredoc_isScriptCut {byte : UInt8} {rest : Bytes}
    (notDouble : byte ≠ Byte.doubleQuote) (notBacktick : byte ≠ Byte.backtick) :
    IsScriptCut (byte :: rest) (cutHeredoc (byte :: rest)) := by
  rw [cutHeredoc]
  split
  · exact cutOperator_isScriptCut notDouble notBacktick
  · next header found =>
      obtain ⟨text, after, split, written, size⟩ := Heredoc.exists_isHeader found
      rw [size, split, List.drop_left]
      split
      · next size closed => exact .closedHeredoc written closed
      · next notClosed => exact .heredoc written notClosed

theorem cutBody_isBodyCut (enclosure : Enclosure) (bytes : Bytes) :
    IsBodyCut enclosure bytes (cutBody enclosure bytes) := by
  have shape := Lexeme.body_isBody enclosure bytes
  rw [cutBody]
  generalize Lexeme.body enclosure bytes = result at shape
  obtain ⟨lexemes, closed⟩ := result
  cases closed with
  | true => exact .closed shape
  | false => exact .cutOff shape

theorem IsConstruct.isScriptCut {bytes : Bytes} {cut : Cut} (construct : IsConstruct bytes cut) :
    IsScriptCut bytes cut := by
  cases construct with
  | finished => exact .finished
  | whitespace space => exact .plain rfl ⟨Bytes.runLength_pos space, Bytes.runLength_le _ _⟩
  | closeTag opens =>
      refine .closeTag ⟨?_, Lexeme.closeTagLength_le (by simp [opens])⟩
      simp only [Lexeme.closeTagLength]
      omega
  | @lineComment first rest opens =>
      have goesOn : first ≠ Byte.lineFeed ∧ first ≠ Byte.question := by
        rcases opens with rfl | ⟨rfl, -⟩ <;> decide
      exact .plain rfl ⟨Lexeme.lineCommentLength_pos goesOn.1 goesOn.2,
        Lexeme.lineCommentLength_le _⟩
  | blockComment opens => exact cutBlockComment_isScriptCut (by simp [opens])
  | sigiled starts =>
      obtain ⟨sigiled, after, split, ⟨name, rfl, -⟩, -, length⟩ := Lexeme.exists_variable starts
      rw [length, split]
      exact .plain rfl ⟨Nat.succ_pos _, by simp⟩
  | number starts => exact .plain (Lexeme.number_kind_isPlain _) (Lexeme.number_fits starts)
  | singleQuoted => exact cutSingleQuoted_isScriptCut _
  | doubleQuote => exact .doubleQuote
  | backtick => exact .backtick
  | name starts =>
      exact .plain (Kind.isPlain_ofName _) ⟨Bytes.nameLength_pos starts, Bytes.nameLength_le _⟩
  | other notDouble notBacktick => exact cutHeredoc_isScriptCut notDouble notBacktick

theorem cutScript_isScriptCut (bytes : Bytes) : IsScriptCut bytes (cutScript bytes) :=
  (cutScript_isConstruct bytes).isScriptCut

end Mode

/-- What a cut takes is there, a scan that goes on has read something, and one that
stops has read everything. -/
structure Cut.Fits (cut : Cut) (bytes : Bytes) : Prop where
  positive : ∀ lexeme ∈ cut.lexemes, 0 < lexeme.size
  total_le : Lexeme.totalSize cut.lexemes ≤ bytes.length
  progress : ∀ mode, cut.next = some mode → 0 < Lexeme.totalSize cut.lexemes
  exhausts : cut.next = none → Lexeme.totalSize cut.lexemes = bytes.length

namespace Mode

/-- A cut of one piece after which the scan goes on. -/
theorem fits_of_single {lexeme : Lexeme} {bytes : Bytes} {unterminated : Option Unterminated}
    {mode : Mode} (fits : lexeme.Fits bytes) :
    Cut.Fits { lexemes := [lexeme], unterminated, next := some mode } bytes := by
  constructor
  · simpa using fits.positive
  · simpa using fits.size_le
  · simpa using fits.positive
  · simp

theorem IsTextCut.fits {bytes : Bytes} {cut : Cut} (shape : IsTextCut bytes cut) :
    cut.Fits bytes := by
  cases shape with
  | @tagged text rest tag length found =>
      have tagFits := Lexeme.openTag?_fits found
      have positive := tagFits.positive
      have short := tagFits.size_le
      constructor
      · intro lexeme member
        rcases List.mem_append.mp member with inText | inTag
        · exact Lexeme.html_positive lexeme inText
        · rw [List.mem_singleton.mp inTag]
          exact positive
      · simp only [Lexeme.totalSize_append, Lexeme.totalSize_html, Lexeme.totalSize_cons,
          Lexeme.totalSize_nil, List.length_append]
        omega
      · intro _ _
        simp only [Lexeme.totalSize_append, Lexeme.totalSize_html, Lexeme.totalSize_cons]
        omega
      · simp
  | untagged => exact ⟨Lexeme.html_positive, by simp, by simp, by simp⟩

theorem IsScriptCut.fits {bytes : Bytes} {cut : Cut} (shape : IsScriptCut bytes cut) :
    cut.Fits bytes := by
  cases shape with
  | finished => constructor <;> simp [Cut.stop]
  | plain _ fits => exact fits_of_single fits
  | char => exact fits_of_single ⟨Nat.one_pos, by simp⟩
  | closeTag fits => exact fits_of_single fits
  | cutOffComment _ nonempty =>
      exact fits_of_single ⟨List.length_pos_iff.mpr nonempty, Nat.le_refl _⟩
  | singleQuoted => exact fits_of_single ⟨Nat.succ_pos _, by simp⟩
  | cutOffQuote => exact ⟨by simp, by simp, by simp, by simp⟩
  | doubleQuote => exact fits_of_single ⟨Nat.one_pos, by simp⟩
  | backtick => exact fits_of_single ⟨Nat.one_pos, by simp⟩
  | @closedHeredoc text label rest size written closed =>
      have header := written.length_pos
      have label := List.length_pos_iff.mpr written.isName.ne_nil
      have closer := Heredoc.closingLength?_le closed
      constructor
      · simp only [List.mem_cons, List.not_mem_nil, or_false]
        rintro lexeme (rfl | rfl)
        · exact header
        · simp only
          omega
      · simp only [Lexeme.totalSize_cons, Lexeme.totalSize_nil, List.length_append]
        omega
      · intro _ _
        simp only [Lexeme.totalSize_cons]
        omega
      · simp
  | heredoc written _ => exact fits_of_single ⟨written.length_pos, by simp⟩

theorem IsBodyCut.fits {enclosure : Enclosure} {bytes : Bytes} {cut : Cut}
    (shape : IsBodyCut enclosure bytes cut) : cut.Fits bytes := by
  cases shape with
  | closed body =>
      have fits := body.fits
      exact ⟨fits.positive, fits.total_le, fun _ _ => fits.progress rfl, by simp⟩
  | cutOff body =>
      have fits := body.fits
      exact ⟨fits.positive, fits.total_le, by simp, fun _ => fits.exhausts rfl⟩

/-- What a call takes is there. -/
theorem cut_fits (mode : Mode) (bytes : Bytes) : (mode.cut bytes).Fits bytes := by
  cases mode with
  | text => exact (cutText_isTextCut bytes).fits
  | script => exact (cutScript_isScriptCut bytes).fits
  | body enclosure => exact (cutBody_isBodyCut enclosure bytes).fits

end Mode

end PageScript
