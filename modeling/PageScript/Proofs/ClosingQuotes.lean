import PageScript.Proofs.ClosingLine
import PageScript.Proofs.Interpolation
import PageScript.Proofs.Resumption
import PageScript.Proofs.Unescaped

/-!
# Closing quotes

A quoted string closes at the first unescaped quote, and in the body of a string a variable
begins at every unescaped sigil that a name follows.

The scanner takes each backslash with the byte after it and looks for quotes and variables
in between, so it looks wherever a reader of pairs does.  A heredoc leaves a line break to be
looked at behind a backslash as well, but no quote and no variable begins with one.
-/

namespace PageScript

open Bytes (FirstUnescaped StandsUnescaped)
open Escape (IsPaired Meets)

namespace Lexeme

section

variable {bytes : Bytes}

theorem firstUnescaped_of_singleQuoteLength? {size : Nat}
    (found : singleQuoteLength? bytes = some size) :
    ∃ offset, size = offset + 1 ∧ FirstUnescaped Byte.singleQuote bytes offset := by
  fun_induction singleQuoteLength? bytes generalizing size with
  | case1 => contradiction
  | case2 rest =>
      cases found
      exact ⟨0, rfl, Bytes.standsUnescaped_iff_meets.mpr (Escape.meets_zero_iff.mpr rfl),
        fun _ _ => Nat.zero_le _⟩
  | case3 => contradiction
  | case4 kept after notQuote ih =>
      obtain ⟨later, inRest, rfl⟩ := Option.map_eq_some_iff.mp found
      obtain ⟨offset, rfl, first⟩ := ih inRest
      have paired : IsPaired [Byte.backslash, kept] := .pair .nil
      refine ⟨2 + offset, by omega, FirstUnescaped.append paired (fun before inPair => ?_) first⟩
      rw [Bytes.standsUnescaped_iff_meets]
      exact Escape.not_meets_pair inPair (by simpa using notQuote)
  | case5 byte after notQuote notBackslash ih =>
      obtain ⟨later, inRest, rfl⟩ := Option.map_eq_some_iff.mp found
      obtain ⟨offset, rfl, first⟩ := ih inRest
      have paired : IsPaired [byte] := .byte notBackslash .nil
      refine ⟨1 + offset, by omega, FirstUnescaped.append paired (fun before inPair => ?_) first⟩
      cases Nat.lt_one_iff.mp inPair
      rw [Bytes.standsUnescaped_iff_meets, Escape.meets_zero_iff]
      simpa using notQuote

theorem not_standsUnescaped_of_singleQuoteLength? (missing : singleQuoteLength? bytes = none)
    (offset : Nat) : ¬ StandsUnescaped Byte.singleQuote bytes offset := by
  rw [Bytes.standsUnescaped_iff_meets]
  fun_induction singleQuoteLength? bytes generalizing offset with
  | case1 => simp [Meets]
  | case2 => contradiction
  | case3 =>
      rintro ⟨paired, found⟩
      cases offset with
      | zero => contradiction
      | succ offset => simp at found
  | case4 kept after notQuote ih =>
      exact Escape.not_meets_of_pair (by simpa using notQuote) fun later _ =>
        ih (Option.map_eq_none_iff.mp missing) later
  | case5 byte after notQuote notBackslash ih =>
      cases offset with
      | zero => simpa [Escape.meets_zero_iff] using notQuote
      | succ offset =>
          exact mt (Escape.meets_cons_iff notBackslash).mp
            (ih (Option.map_eq_none_iff.mp missing) _)

end

/-- What ends a run of text: a variable or the terminator. -/
def stopsText (enclosure : Enclosure) (bytes : Bytes) : Bool :=
  startsVariable bytes || (terminator? enclosure bytes).isSome

section

variable {enclosure : Enclosure} {bytes : Bytes} {offset : Nat}

/-- Neither a variable nor a terminator begins with a backslash or a byte of a name. -/
theorem not_stopsText {byte : UInt8} {rest : Bytes}
    (other : byte = Byte.backslash ∨ Byte.isNamePart byte) :
    ¬ stopsText enclosure (byte :: rest) := by
  have differs {special : UInt8} (notBackslash : Byte.backslash ≠ special)
      (notPart : ¬ Byte.isNamePart special) : byte ≠ special := by
    rintro rfl
    exact other.elim (notBackslash ·.symm) notPart
  have notSigil : byte ≠ Byte.dollar := differs (by decide) (by decide)
  have notQuote : byte ≠ Byte.doubleQuote := differs (by decide) (by decide)
  have notBacktick : byte ≠ Byte.backtick := differs (by decide) (by decide)
  have notClosed {label : Bytes} : Heredoc.closerLength? label (byte :: rest) = none :=
    Heredoc.closerLength?_of_ne (differs (by decide) (by decide)) (differs (by decide) (by decide))
  cases enclosure <;>
    simp [stopsText, startsVariable, terminator?, notSigil, notQuote, notBacktick, notClosed]

/-- A reader of pairs comes upon nothing that ends a run of text within it. -/
theorem not_meets_of_lt_textLength (inText : offset < textLength enclosure bytes) :
    ¬ Meets (stopsText enclosure) bytes offset := by
  fun_induction textLength enclosure bytes generalizing offset with
  | case1 => contradiction
  | case2 =>
      cases Nat.lt_one_iff.mp inText
      exact mt Escape.meets_zero_iff.mp (not_stopsText (.inl rfl))
  | case3 following after keeps ih =>
      refine Escape.not_meets_of_pair (not_stopsText (.inl rfl)) ?_
      rintro later rfl
      -- The line break is no backslash, so it may as well have been taken by one.
      have behind := ih (Nat.lt_of_succ_lt_succ inText)
      rwa [Escape.meets_cons_iff (ne_of_keepsLineBreak keeps)] at behind
  | case4 following after _ ih =>
      refine Escape.not_meets_of_pair (not_stopsText (.inl rfl)) ?_
      rintro later rfl
      exact ih (Nat.lt_of_succ_lt_succ (Nat.lt_of_succ_lt_succ inText))
  | case5 => contradiction
  | case6 => contradiction
  | case7 byte rest notBackslash noVariable notClosed ih =>
      cases offset with
      | zero => simp [Escape.meets_zero_iff, stopsText, noVariable, notClosed]
      | succ offset =>
          exact mt (Escape.meets_cons_iff notBackslash).mp (ih (Nat.lt_of_succ_lt_succ inText))

/-- Within the name of a variable nothing ends a run of text. -/
theorem IsVariable.not_stopsText {sigiled : Bytes} (isVariable : IsVariable sigiled)
    (inName : offset + 1 < sigiled.length) (rest : Bytes) :
    ¬ stopsText enclosure ((sigiled ++ rest).drop (offset + 1)) := by
  obtain ⟨name, rfl, isName⟩ := isVariable
  have inName : offset < name.length := Nat.lt_of_succ_lt_succ inName
  rw [List.cons_append, List.drop_succ_cons, List.drop_append_of_le_length (Nat.le_of_lt inName),
    List.drop_eq_getElem_cons inName, List.cons_append]
  exact Lexeme.not_stopsText (.inr (isName.members _ (List.getElem_mem inName)))

end

/-- A variable begins at an offset: an unescaped sigil stands there, and a name behind it. -/
def BeginsVariable (bytes : Bytes) (offset : Nat) : Prop :=
  StandsUnescaped Byte.dollar bytes offset ∧
    Bytes.startsWhere Byte.isNameStart (bytes.drop (offset + 1))

theorem beginsVariable_iff_meets {bytes : Bytes} {offset : Nat} :
    BeginsVariable bytes offset ↔ Meets startsVariable bytes offset := by
  rw [BeginsVariable, Bytes.standsUnescaped_iff_meets, Meets, Meets, ← List.drop_drop]
  cases bytes.drop offset <;> simp [startsVariable, and_assoc]

namespace IsParts

variable {enclosure : Enclosure} {body rest : Bytes} {parts : List Lexeme} {offset : Nat}

/-- In a body a reader of pairs comes upon what ends a run of text only where a variable
stands. -/
theorem exists_variable_of_meets (shape : IsParts enclosure body parts rest) (file : FileId)
    (behind : Bytes) (inBody : offset < body.length)
    (meets : Meets (stopsText enclosure) (body ++ rest) offset) :
    ∃ token ∈ place file behind body parts,
      token.kind = .variable ∧ token.span.start = behind.length + offset := by
  induction shape generalizing behind offset with
  | text length => exact absurd meets (not_meets_of_lt_textLength (length ▸ inBody))
  | @interpolated text sigiled body rest parts length isVariable stops _ ih =>
      simp only [List.append_assoc] at meets
      rw [place_interpolated]
      by_cases inText : offset < text.length
      · exact absurd meets (not_meets_of_lt_textLength (length ▸ inText))
      obtain ⟨offset, rfl⟩ := Nat.exists_eq_add_of_le (Nat.le_of_not_lt inText)
      rw [Escape.meets_append_iff (isVariable.isPaired_before length)] at meets
      by_cases inVariable : offset < sigiled.length
      · cases offset with
        | zero =>
            exact ⟨_, List.mem_append_right _ List.mem_cons_self, rfl,
              Bytes.length_reverse_append text behind⟩
        | succ offset => exact absurd meets.2 (isVariable.not_stopsText inVariable _)
      obtain ⟨offset, rfl⟩ := Nat.exists_eq_add_of_le (Nat.le_of_not_lt inVariable)
      rw [Escape.meets_append_iff isVariable.isPaired] at meets
      have inLater : offset < body.length := by
        simp only [List.length_append] at inBody
        omega
      obtain ⟨token, member, kind, start⟩ :=
        ih (sigiled.reverse ++ (text.reverse ++ behind)) inLater meets
      refine ⟨token, List.mem_append_right _ (List.mem_cons_of_mem _ member), kind, ?_⟩
      rw [start, Bytes.length_reverse_append, Bytes.length_reverse_append]
      omega

/-- The variables among the parts of a body are those that begin in it. -/
theorem beginsVariable_iff (shape : IsParts enclosure body parts rest) (file : FileId)
    (behind : Bytes) (inBody : offset < body.length) :
    BeginsVariable (body ++ rest) offset ↔
      ∃ token ∈ place file behind body parts,
        token.kind = .variable ∧ token.span.start = behind.length + offset := by
  rw [beginsVariable_iff_meets]
  constructor
  · rintro ⟨paired, starts⟩
    exact shape.exists_variable_of_meets file behind inBody
      ⟨paired, by rw [stopsText, starts, Bool.true_or]⟩
  · rintro ⟨token, member, kind, start⟩
    obtain ⟨front, back, rfl, paired, startToo, isVariable, -⟩ :=
      shape.exists_split_of_variable file behind member kind
    obtain rfl : offset = front.length := by omega
    rw [List.append_assoc, List.append_assoc, ← Nat.add_zero front.length,
      Escape.meets_append_iff paired, Escape.meets_zero_iff]
    exact isVariable.startsVariable _

/-- A body that does not end in front of a line break leaves no backslash unpaired. -/
theorem isPaired (shape : IsParts enclosure body parts rest)
    (stops : rest.startsWhere fun byte => !keepsLineBreak enclosure byte) : IsPaired body := by
  induction shape with
  | text length => exact isPaired_of_textLength length stops
  | interpolated length isVariable _ _ ih =>
      exact (isVariable.isPaired_before length).append_iff.mpr
        (isVariable.isPaired.append_iff.mpr (ih stops))

end IsParts

end Lexeme

namespace Enclosure

/-- The quote that opens and closes the strings of an enclosure.  A heredoc has none. -/
def quote? : Enclosure → Option UInt8
  | .doubleQuote => some Byte.doubleQuote
  | .backtick => some Byte.backtick
  | .heredoc _ => none

variable {enclosure : Enclosure} {quote : UInt8}

theorem cases_of_quote? (quoted : enclosure.quote? = some quote) :
    enclosure = .doubleQuote ∧ quote = Byte.doubleQuote ∨
      enclosure = .backtick ∧ quote = Byte.backtick := by
  cases enclosure with
  | doubleQuote => exact .inl ⟨rfl, (Option.some.inj quoted).symm⟩
  | backtick => exact .inr ⟨rfl, (Option.some.inj quoted).symm⟩
  | heredoc label => contradiction

theorem terminator?_of_quote? (quoted : enclosure.quote? = some quote) (bytes : Bytes) :
    Lexeme.terminator? enclosure bytes =
      if Bytes.startsWhere (· == quote) bytes then some ⟨.char, 1⟩ else none := by
  rcases cases_of_quote? quoted with ⟨rfl, rfl⟩ | ⟨rfl, rfl⟩ <;> rfl

theorem not_keepsLineBreak_of_quote? (quoted : enclosure.quote? = some quote) (byte : UInt8) :
    ¬ Lexeme.keepsLineBreak enclosure byte := by
  rcases cases_of_quote? quoted with ⟨rfl, rfl⟩ | ⟨rfl, rfl⟩ <;> exact Bool.false_ne_true

theorem ne_dollar_of_quote? (quoted : enclosure.quote? = some quote) : quote ≠ Byte.dollar := by
  rcases cases_of_quote? quoted with ⟨rfl, rfl⟩ | ⟨rfl, rfl⟩ <;> decide

/-- What closes a string of an enclosure with a quote is that quote. -/
theorem closes_of_quote? {token : Token} (quoted : enclosure.quote? = some quote)
    (closes : enclosure.Closes token) : token.kind = .char ∧ token.data = [quote] := by
  rcases cases_of_quote? quoted with ⟨rfl, rfl⟩ | ⟨rfl, rfl⟩ <;> exact closes

end Enclosure

namespace Lexeme.IsParts

variable {enclosure : Enclosure} {quote : UInt8} {body rest : Bytes} {parts : List Lexeme}

/-- In a body every quote is escaped. -/
theorem not_standsUnescaped (shape : IsParts enclosure body parts rest)
    (quoted : enclosure.quote? = some quote) {offset : Nat} (inBody : offset < body.length) :
    ¬ StandsUnescaped quote (body ++ rest) offset := by
  intro stands
  obtain ⟨paired, starts⟩ := Bytes.standsUnescaped_iff_meets.mp stands
  have meets : Meets (stopsText enclosure) (body ++ rest) offset :=
    ⟨paired, by simp [stopsText, Enclosure.terminator?_of_quote? quoted, starts]⟩
  obtain ⟨⟨sigil, -⟩, -⟩ := (shape.beginsVariable_iff {} [] inBody).mpr
    (shape.exists_variable_of_meets {} [] inBody meets)
  exact Enclosure.ne_dollar_of_quote? quoted (Option.some.inj (stands.1.symm.trans sigil))

/-- The quote behind a body is the first one that is not escaped. -/
theorem firstUnescaped (shape : IsParts enclosure body parts rest)
    (quoted : enclosure.quote? = some quote) (starts : rest.startsWhere (· == quote)) :
    FirstUnescaped quote (body ++ rest) body.length := by
  obtain ⟨first, after, rfl, -⟩ := Bytes.exists_cons_of_startsWhere starts
  have paired := shape.isPaired (by simpa using Enclosure.not_keepsLineBreak_of_quote? quoted first)
  refine Bytes.firstUnescaped_iff.mpr ⟨?_, fun before => shape.not_standsUnescaped quoted⟩
  rw [Bytes.standsUnescaped_iff_meets, ← Nat.add_zero body.length,
    Escape.meets_append_iff paired, Escape.meets_zero_iff]
  exact starts

end Lexeme.IsParts

/-- The tokens of a body that begins at an offset of a page, with the bytes behind it: text
and variables.  A variable begins at every unescaped sigil that a name follows, and takes the
name to its end. -/
structure IsBodyRead (start : Nat) (body rest : Bytes) (tokens : List Token) : Prop where
  isPart : ∀ token ∈ tokens, token.isPart
  covers : tokens.flatMap (·.data) = body
  begins : ∀ offset < body.length, Lexeme.BeginsVariable (body ++ rest) offset ↔
    ∃ token ∈ tokens, token.kind = .variable ∧ token.span.start = start + offset
  ends : ∀ token ∈ tokens, token.kind = .variable → ∃ front back,
    body = front ++ (token.data ++ back) ∧ token.span.start = start + front.length ∧
      Lexeme.IsVariable token.data ∧ ¬ Bytes.startsWhere Byte.isNamePart (back ++ rest)

theorem Lexeme.IsParts.isBodyRead {enclosure : Enclosure} {body rest : Bytes}
    {parts : List Lexeme} (shape : IsParts enclosure body parts rest) (file : FileId)
    (behind : Bytes) : IsBodyRead behind.length body rest (place file behind body parts) where
  isPart := place_isPart file behind body shape.kind
  covers := by rw [flatMap_data_place, shape.totalSize_eq, List.take_length]
  begins _ inBody := shape.beginsVariable_iff file behind inBody
  ends token member kind := by
    obtain ⟨front, back, split, -, start, isVariable, stops⟩ :=
      shape.exists_split_of_variable file behind member kind
    exact ⟨front, back, split, start, isVariable, stops⟩

/-- The tokens from the first byte of a body on.  A body that a quote closes goes on up to the
first one that is not escaped. -/
inductive Enclosure.Reads (enclosure : Enclosure) (start : Nat) (ahead : Bytes) :
    List Token → Prop where
  | closed {body rest : Bytes} {parts later : List Token} {closer : Token} :
      ahead = body ++ rest → IsBodyRead start body rest parts →
      enclosure.Closes closer → closer.span.start = start + body.length →
      (∀ quote, enclosure.quote? = some quote → FirstUnescaped quote ahead body.length) →
      Reads enclosure start ahead (parts ++ closer :: later)
  | cutOff {parts : List Token} :
      IsBodyRead start ahead [] parts →
      (∀ quote, enclosure.quote? = some quote →
        ∀ offset, ¬ StandsUnescaped quote ahead offset) →
      Reads enclosure start ahead parts

/-- A call in a body reads it. -/
theorem Call.reads (file : FileId) (enclosure : Enclosure) (behind ahead : Bytes) :
    enclosure.Reads behind.length ahead
      ((Call.mk (.body enclosure) behind ahead).tokensOnward file) := by
  have shape := Mode.cutBody_isBodyCut enclosure ahead
  have cut : (Call.mk (.body enclosure) behind ahead).cut = Mode.cutBody enclosure ahead := rfl
  generalize Mode.cutBody enclosure ahead = taken at shape cut
  cases shape with
  | closed shape =>
      obtain ⟨body, closing, rest, parts, rfl, rfl, shape, found⟩ := shape.exists_closing
      rw [tokensOnward_of_next file (congrArg Cut.next cut), Call.tokens, cut,
        shape.place_closing, List.append_assoc]
      refine .closed rfl (shape.isBodyRead file behind)
        (Enclosure.closes_of_terminator? found file _) ?_ fun quote quoted => ?_
      · exact Bytes.length_reverse_append body behind
      · rw [Enclosure.terminator?_of_quote? quoted, Option.ite_none_right_eq_some] at found
        exact shape.firstUnescaped quoted found.1
  | cutOff shape =>
      cases shape with
      | cutOff shape =>
          rw [tokensOnward_of_stop file (congrArg Cut.next cut), Call.tokens, cut]
          refine .cutOff (shape.isBodyRead file behind) fun quote quoted offset stands => ?_
          have inBody : offset < ahead.length := (List.getElem?_eq_some_iff.mp stands.1).1
          have escaped := shape.not_standsUnescaped quoted inBody
          rw [List.append_nil] at escaped
          exact escaped stands

/-- The tokens from a single quote on that opens a string: the string up to its first unescaped
quote, or all that is left as one invalid token. -/
structure ReadsSingleQuoted (start : Nat) (ahead : Bytes) (tokens : List Token) : Prop where
  closed : ∀ offset, FirstUnescaped Byte.singleQuote ahead offset →
    ∃ token later, tokens = token :: later ∧ token.kind = .singleQuoted ∧
      token.span.start = start ∧ token.span.stop = start + 1 + offset + 1 ∧
      token.data = Byte.singleQuote :: ahead.take (offset + 1)
  cutOff : (∀ offset, ¬ StandsUnescaped Byte.singleQuote ahead offset) →
    ∃ token, tokens = [token] ∧ token.kind = .invalid ∧ token.span.start = start ∧
      token.data = Byte.singleQuote :: ahead

/-- The tokens from another quote on that opens a string: the quote, the body up to the first
quote that is not escaped, and that quote, or the body up to the end of the page. -/
structure ReadsQuoted (quote : UInt8) (start : Nat) (ahead : Bytes) (tokens : List Token) :
    Prop where
  closed : ∀ offset, FirstUnescaped quote ahead offset →
    ∃ opener parts closer later, tokens = opener :: (parts ++ closer :: later) ∧
      (opener.kind = .char ∧ opener.data = [quote] ∧ opener.span.start = start) ∧
      IsBodyRead (start + 1) (ahead.take offset) (ahead.drop offset) parts ∧
      closer.kind = .char ∧ closer.data = [quote] ∧ closer.span.start = start + 1 + offset
  cutOff : (∀ offset, ¬ StandsUnescaped quote ahead offset) →
    ∃ opener parts, tokens = opener :: parts ∧
      (opener.kind = .char ∧ opener.data = [quote] ∧ opener.span.start = start) ∧
      IsBodyRead (start + 1) ahead [] parts

/-- A body is closed by the first unescaped quote if there is one. -/
theorem Enclosure.Reads.readsQuoted {enclosure : Enclosure} {quote : UInt8} {start : Nat}
    {ahead : Bytes} {opener : Token} {tokens : List Token}
    (quoted : enclosure.quote? = some quote)
    (opens : opener.kind = .char ∧ opener.data = [quote] ∧ opener.span.start = start)
    (reads : enclosure.Reads (start + 1) ahead tokens) :
    ReadsQuoted quote start ahead (opener :: tokens) := by
  cases reads with
  | @closed body rest parts later closer split read closes closerStart first =>
      have first := first quote quoted
      obtain ⟨kind, data⟩ := closes_of_quote? quoted closes
      constructor
      · intro offset firstToo
        cases first.unique firstToo
        have body_eq : ahead.take body.length = body := by rw [split, List.take_left]
        have rest_eq : ahead.drop body.length = rest := by rw [split, List.drop_left]
        rw [body_eq, rest_eq]
        exact ⟨opener, parts, closer, later, rfl, opens, read, kind, data, closerStart⟩
      · intro none
        exact absurd first.1 (none _)
  | cutOff read none =>
      constructor
      · intro offset first
        exact absurd first.1 (none quote quoted offset)
      · intro _
        exact ⟨opener, tokens, rfl, opens, read⟩

namespace Mode

theorem cutScript_singleQuote (rest : Bytes) :
    cutScript (Byte.singleQuote :: rest) = cutSingleQuoted (Byte.singleQuote :: rest) := rfl

theorem cutScript_of_quote? {enclosure : Enclosure} {quote : UInt8}
    (quoted : enclosure.quote? = some quote) (rest : Bytes) :
    cutScript (quote :: rest) = { lexemes := [⟨.char, 1⟩], next := some (.body enclosure) } := by
  rcases Enclosure.cases_of_quote? quoted with ⟨rfl, rfl⟩ | ⟨rfl, rfl⟩ <;> rfl

end Mode

namespace Call

variable (file : FileId) (behind ahead : Bytes)

theorem readsSingleQuoted : ReadsSingleQuoted behind.length ahead
    ((Call.mk .script behind (Byte.singleQuote :: ahead)).tokensOnward file) := by
  have cut : (Call.mk .script behind (Byte.singleQuote :: ahead)).cut =
      Mode.cutSingleQuoted (Byte.singleQuote :: ahead) := Mode.cutScript_singleQuote ahead
  rw [Mode.cutSingleQuoted, List.drop_succ_cons, List.drop_zero] at cut
  constructor
  · intro offset first
    cases found : Lexeme.singleQuoteLength? ahead with
    | none => exact absurd first.1 (Lexeme.not_standsUnescaped_of_singleQuoteLength? found offset)
    | some size =>
        obtain ⟨same, rfl, firstToo⟩ := Lexeme.firstUnescaped_of_singleQuoteLength? found
        cases first.unique firstToo
        have inside : offset < ahead.length := (List.getElem?_eq_some_iff.mp first.1.1).1
        simp only [found] at cut
        rw [tokensOnward_of_next file (congrArg Cut.next cut), Call.tokens, cut]
        refine ⟨_, _, rfl, rfl, rfl, ?_, rfl⟩
        simp only [Token.after, Span.after, List.length_take, List.length_cons]
        omega
  · intro none
    cases found : Lexeme.singleQuoteLength? ahead with
    | none =>
        simp only [found] at cut
        rw [tokensOnward_of_stop file (congrArg Cut.next cut), Call.tokens, cut]
        exact ⟨_, rfl, rfl, rfl, List.take_length⟩
    | some size =>
        obtain ⟨offset, -, first⟩ := Lexeme.firstUnescaped_of_singleQuoteLength? found
        exact absurd first.1 (none offset)

theorem readsQuoted {enclosure : Enclosure} {quote : UInt8}
    (quoted : enclosure.quote? = some quote) : ReadsQuoted quote behind.length ahead
      ((Call.mk .script behind (quote :: ahead)).tokensOnward file) := by
  have cut : (Call.mk .script behind (quote :: ahead)).cut =
      { lexemes := [⟨.char, 1⟩], next := some (.body enclosure) } :=
    Mode.cutScript_of_quote? quoted ahead
  have onward : (Call.mk .script behind (quote :: ahead)).onward (.body enclosure) =
      .mk (.body enclosure) (quote :: behind) ahead := by
    rw [Call.onward, size, cut]
    rfl
  rw [tokensOnward_of_next file (congrArg Cut.next cut), Call.tokens, cut, onward]
  exact Enclosure.Reads.readsQuoted quoted ⟨rfl, rfl, rfl⟩
    (reads file enclosure (quote :: behind) ahead)

end Call

/-- Wherever a script opens a quoted string, the string closes at the first quote that is not
escaped, and not at all if there is none.  In the body of any string the variables are those
that begin at an unescaped sigil. -/
theorem scan_closesUnescaped (mode : Mode) (bytes : Bytes) (file : FileId) :
    (∀ before ahead, Mode.grammar.Calls mode (Scanner.ofBytes bytes file) .script before →
      bytes.drop before.cursor.offset = Byte.singleQuote :: ahead →
      ∃ tokens, (scan mode bytes file).tokens = before.tokens ++ tokens ∧
        ReadsSingleQuoted before.cursor.offset ahead tokens) ∧
    (∀ (enclosure : Enclosure) (quote : UInt8) before ahead, enclosure.quote? = some quote →
      Mode.grammar.Calls mode (Scanner.ofBytes bytes file) .script before →
      bytes.drop before.cursor.offset = quote :: ahead →
      ∃ tokens, (scan mode bytes file).tokens = before.tokens ++ tokens ∧
        ReadsQuoted quote before.cursor.offset ahead tokens) ∧
    ∀ (enclosure : Enclosure) before,
      Mode.grammar.Calls mode (Scanner.ofBytes bytes file) (.body enclosure) before →
      ∃ tokens, (scan mode bytes file).tokens = before.tokens ++ tokens ∧
        enclosure.Reads before.cursor.offset (bytes.drop before.cursor.offset) tokens := by
  refine ⟨?_, ?_, ?_⟩
  · intro before ahead called left
    obtain ⟨behind, offset, scanned⟩ := Mode.exists_onward_of_calls called
    rw [left] at scanned
    exact ⟨_, scanned, offset ▸ Call.readsSingleQuoted file behind ahead⟩
  · intro enclosure quote before ahead quoted called left
    obtain ⟨behind, offset, scanned⟩ := Mode.exists_onward_of_calls called
    rw [left] at scanned
    exact ⟨_, scanned, offset ▸ Call.readsQuoted file behind ahead quoted⟩
  · intro enclosure before called
    obtain ⟨behind, offset, scanned⟩ := Mode.exists_onward_of_calls called
    exact ⟨_, scanned, offset ▸ Call.reads file enclosure behind _⟩

/-- Strings of each kind in which a quote or a sigil is escaped. -/
theorem scan_closesUnescaped_escaped :
    let single := Bytes.ascii "'\\'a'"
    let double := Bytes.ascii "\"\\\"$a\""
    let heredoc := Bytes.ascii "\\$a$b\nA"
    let enclosure := Enclosure.heredoc (Bytes.ascii "A")
    (FirstUnescaped Byte.singleQuote (single.drop 1) 3 ∧
      ReadsSingleQuoted 0 (single.drop 1) (scan .script single {}).tokens) ∧
    (FirstUnescaped Byte.doubleQuote (double.drop 1) 4 ∧
      ReadsQuoted Byte.doubleQuote 0 (double.drop 1) (scan .script double {}).tokens) ∧
    enclosure.Reads 0 heredoc (scan (.body enclosure) heredoc {}).tokens := by
  intro single double heredoc enclosure
  refine ⟨⟨by decide, ?_⟩, ⟨by decide, ?_⟩, ?_⟩
  · obtain ⟨tokens, scanned, reads⟩ :=
      (scan_closesUnescaped .script single {}).1 _ (single.drop 1) .first rfl
    rw [scanned]
    exact reads
  · obtain ⟨tokens, scanned, reads⟩ :=
      (scan_closesUnescaped .script double {}).2.1 .doubleQuote _ _ (double.drop 1) rfl .first rfl
    rw [scanned]
    exact reads
  · obtain ⟨tokens, scanned, reads⟩ :=
      (scan_closesUnescaped (.body enclosure) heredoc {}).2.2 _ _ .first
    rw [scanned]
    exact reads

end PageScript
