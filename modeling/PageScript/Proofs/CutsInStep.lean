import PageScript.Proofs.AlignedLexemes
import PageScript.Proofs.CutShape

/-!
# Cuts in step

A mode cuts the same lexemes from a page and from the page with returns, with one exception
to what is left behind them.  Behind a line comment the one scan stands before a line feed
and the other one between the carriage return and the line feed: `Mode.Abreast`.  There
both go on with whitespace, and the same bytes are left again.

`Lexeme.InStep` carries the comparison from lexeme to lexeme.  It follows the split of the
two pages into pieces, which need not be of the same length.
-/

namespace PageScript

/-- The label of a heredoc is a name. -/
def Enclosure.IsNamed : Enclosure → Prop
  | .heredoc label => label.IsName
  | _ => True

/-- In the body of a heredoc the label is a name. -/
def Mode.IsNamed : Mode → Prop
  | .body enclosure => enclosure.IsNamed
  | _ => True

namespace Lexeme

open Bytes (Aligned withReturns)

variable {enclosure : Enclosure} {bytes rest : Bytes}

theorem quote_counterparts {quote : UInt8} (notReturn : Byte.carriageReturn ≠ quote)
    (notFeed : Byte.lineFeed ≠ quote) (bytes : Bytes) :
    Option.Rel (Counterparts bytes)
      (if bytes.startsWhere (· == quote) then some ⟨.char, 1⟩ else none)
      (if bytes.withReturns.startsWhere (· == quote) then some ⟨.char, 1⟩ else none) := by
  rw [Bytes.startsWhere_beq_withReturns notReturn notFeed]
  split
  · next starts =>
      obtain ⟨byte, rest, rfl, same⟩ := Bytes.exists_cons_of_startsWhere starts
      have other : byte ≠ Byte.lineFeed := by
        rw [beq_iff_eq.mp same]
        exact Ne.symm notFeed
      exact .some ⟨rfl, .one other rest⟩
  · exact .none

theorem terminator?_counterparts (named : enclosure.IsNamed)
    (noReturn : Byte.carriageReturn ∉ bytes) :
    Option.Rel (Counterparts bytes) (terminator? enclosure bytes)
      (terminator? enclosure bytes.withReturns) := by
  cases enclosure with
  | doubleQuote => exact quote_counterparts (by decide) (by decide) bytes
  | backtick => exact quote_counterparts (by decide) (by decide) bytes
  | heredoc label =>
      have closer := Heredoc.closerLength?_aligned named noReturn
      rw [terminator?, terminator?]
      generalize Heredoc.closerLength? label bytes = length at closer
      generalize Heredoc.closerLength? label bytes.withReturns = counterpart at closer
      cases closer with
      | none => exact .none
      | some aligned => exact .some ⟨rfl, aligned⟩

theorem terminator?_withReturns_isSome (named : enclosure.IsNamed)
    (noReturn : Byte.carriageReturn ∉ bytes) :
    (terminator? enclosure bytes.withReturns).isSome = (terminator? enclosure bytes).isSome := by
  have closers := terminator?_counterparts named noReturn
  generalize terminator? enclosure bytes = closer at closers
  generalize terminator? enclosure bytes.withReturns = counterpart at closers
  cases closers <;> rfl

/-- At a line feed the return before it makes no difference. -/
theorem terminator?_lineFeed_isSome (named : enclosure.IsNamed) (rest : Bytes) :
    (terminator? enclosure (Byte.lineFeed :: rest.withReturns)).isSome =
      (terminator? enclosure (Byte.lineFeed :: rest)).isSome := by
  cases enclosure with
  | doubleQuote => rfl
  | backtick => rfl
  | heredoc label =>
      simp only [terminator?, Heredoc.closerLength?_lineFeed,
        Heredoc.closingLength?_withReturns named, Option.isSome_map]

theorem keepsLineBreak_noBreak (enclosure : Enclosure) :
    keepsLineBreak enclosure Byte.carriageReturn = keepsLineBreak enclosure Byte.lineFeed := by
  cases enclosure <;> rfl

/-- A body in which a backslash takes a line feed has no terminator there. -/
theorem terminator?_of_not_keeps (loses : ¬ keepsLineBreak enclosure Byte.lineFeed)
    (rest : Bytes) : ¬ (terminator? enclosure (Byte.lineFeed :: rest)).isSome := by
  cases enclosure with
  | doubleQuote =>
      have other : Byte.lineFeed ≠ Byte.doubleQuote := by decide
      simp [terminator?, other]
  | backtick =>
      have other : Byte.lineFeed ≠ Byte.backtick := by decide
      simp [terminator?, other]
  | heredoc label => exact absurd rfl loses

/-- A line feed that begins no terminator is text. -/
theorem textLength_lineFeed (goesOn : ¬ (terminator? enclosure (Byte.lineFeed :: rest)).isSome) :
    textLength enclosure (Byte.lineFeed :: rest) = textLength enclosure rest + 1 := by
  have other : Byte.lineFeed ≠ Byte.dollar := by decide
  exact textLength_of_ne (by decide) (by simp [startsVariable, other]) goesOn

theorem textLength_aligned (named : enclosure.IsNamed) (noReturn : Byte.carriageReturn ∉ bytes) :
    Aligned bytes (textLength enclosure bytes) (textLength enclosure bytes.withReturns) := by
  fun_induction textLength enclosure bytes with
  | case1 => exact .zero []
  | case2 => exact .one (by decide) []
  | case3 following after keeps ih =>
      have later := ih (List.ne_and_not_mem_of_not_mem_cons noReturn).2
      have keepsToo : Bytes.startsWhere (keepsLineBreak enclosure)
          (withReturns (following :: after)) := by
        rw [Bytes.startsWhere_withReturns (keepsLineBreak_noBreak enclosure)]
        exact keeps
      rw [Bytes.withReturns_cons (by decide), textLength_backslash_of_keeps keepsToo,
        Nat.add_comm 1]
      exact later.cons (by decide)
  | case4 following after loses ih =>
      have noReturnLater := (List.ne_and_not_mem_of_not_mem_cons noReturn).2
      have later := ih (List.ne_and_not_mem_of_not_mem_cons noReturnLater).2
      rw [Bytes.withReturns_cons (by decide)]
      by_cases feed : following = Byte.lineFeed
      · subst feed
        have losesToo (after : Bytes) : ¬ Bytes.startsWhere (keepsLineBreak enclosure)
            (Byte.carriageReturn :: after) := by
          rwa [Bytes.startsWhere_cons, keepsLineBreak_noBreak]
        rw [Bytes.withReturns_lineFeed, textLength_backslash_cons, if_neg (losesToo _),
          textLength_lineFeed (terminator?_of_not_keeps loses _)]
        exact later.lineFeed.cons (by decide)
      · rw [Bytes.withReturns_cons feed, textLength_backslash_cons, Bytes.startsWhere_cons,
          if_neg loses]
        exact (later.cons feed).cons (by decide)
  | case5 byte rest notBackslash starts =>
      have notFeed : byte ≠ Byte.lineFeed := by
        rintro rfl
        contradiction
      have startsToo := (startsVariable_withReturns (byte :: rest)).trans starts
      rw [Bytes.withReturns_cons notFeed] at startsToo ⊢
      rw [textLength_eq_zero notBackslash (.inl startsToo)]
      exact .zero _
  | case6 byte rest notBackslash _ ends =>
      have endsToo := (terminator?_withReturns_isSome named noReturn).trans ends
      by_cases feed : byte = Byte.lineFeed
      · subst feed
        rw [Bytes.withReturns_lineFeed] at endsToo ⊢
        rw [textLength_eq_zero (by decide) (.inr endsToo)]
        exact .zero _
      · rw [Bytes.withReturns_cons feed] at endsToo ⊢
        rw [textLength_eq_zero notBackslash (.inr endsToo)]
        exact .zero _
  | case7 byte rest notBackslash noVariable noTerminator ih =>
      have later := ih (List.ne_and_not_mem_of_not_mem_cons noReturn).2
      have noVariableToo := (startsVariable_withReturns (byte :: rest)).trans_ne noVariable
      have noTerminatorToo :=
        (terminator?_withReturns_isSome named noReturn).trans_ne noTerminator
      by_cases feed : byte = Byte.lineFeed
      · subst feed
        have goesOn := (terminator?_lineFeed_isSome named rest).trans_ne noTerminator
        rw [Bytes.withReturns_lineFeed] at noVariableToo noTerminatorToo ⊢
        rw [textLength_of_ne (by decide) noVariableToo noTerminatorToo, textLength_lineFeed goesOn]
        exact later.lineFeed
      · rw [Bytes.withReturns_cons feed] at noVariableToo noTerminatorToo ⊢
        rw [textLength_of_ne notBackslash noVariableToo noTerminatorToo]
        exact later.cons feed

end Lexeme

/-- The bytes left in a page and in the page with returns, if `next` is the mode of both.
In a script the return before a line feed may have been read already. -/
def Mode.Abreast (next : Option Mode) (ahead other : Bytes) : Prop :=
  other = ahead.withReturns ∨
    next = some .script ∧ ahead.withReturns = Byte.carriageReturn :: other

namespace Lexeme

open Bytes (Aligned withReturns)

/-- Lexemes of the same kinds, over bytes with as many line feeds, up to bytes from which
both pages are scanned on in the mode `next`. -/
inductive InStep (next : Option Mode) : Bytes → List Lexeme → Bytes → List Lexeme → Prop where
  | done {ahead other : Bytes} : Mode.Abreast next ahead other → InStep next ahead [] other []
  | cons {data dataToo rest restToo : Bytes} {kind : Kind} {lexemes others : List Lexeme} :
      dataToo.count Byte.lineFeed = data.count Byte.lineFeed →
      InStep next rest lexemes restToo others →
      InStep next (data ++ rest) (⟨kind, data.length⟩ :: lexemes)
        (dataToo ++ restToo) (⟨kind, dataToo.length⟩ :: others)

variable {next : Option Mode} {enclosure : Enclosure} {bytes rest : Bytes} {byte : UInt8}
  {lexeme other : Lexeme} {lexemes others : List Lexeme}

theorem InStep.exact (bytes : Bytes) : InStep next bytes [] bytes.withReturns [] :=
  .done (.inl rfl)

theorem InStep.pair (counterparts : Counterparts bytes lexeme other)
    (later : InStep next (bytes.drop lexeme.size) lexemes
      (withReturns (bytes.drop lexeme.size)) others) :
    InStep next bytes (lexeme :: lexemes) bytes.withReturns (other :: others) := by
  obtain ⟨kind, size⟩ := lexeme
  obtain ⟨kindToo, sizeToo⟩ := other
  obtain ⟨rfl, aligned⟩ := counterparts
  simp only at aligned later
  obtain ⟨front, back⟩ := aligned
  rw [List.drop_left] at later
  rw [Bytes.withReturns_append]
  exact .cons (Bytes.count_withReturns front) later

theorem InStep.single (counterparts : Counterparts bytes lexeme other) :
    InStep next bytes [lexeme] bytes.withReturns [other] :=
  .pair counterparts (.exact _)

/-- A run that is empty makes no lexeme in either page. -/
theorem InStep.run (kind : Kind) {size sizeToo : Nat} (aligned : Aligned bytes size sizeToo)
    (later : InStep next (bytes.drop size) lexemes (withReturns (bytes.drop size)) others) :
    InStep next bytes ((if size = 0 then [] else [⟨kind, size⟩]) ++ lexemes)
      bytes.withReturns ((if sizeToo = 0 then [] else [⟨kind, sizeToo⟩]) ++ others) := by
  by_cases none : size = 0
  · have noneToo := aligned.eq_zero_iff.mpr none
    subst none noneToo
    exact later
  · rw [if_neg none, if_neg (mt aligned.eq_zero_iff.mp none)]
    exact .pair ⟨rfl, aligned⟩ later

theorem InStep.onlyRun (kind : Kind) {size sizeToo : Nat} (aligned : Aligned bytes size sizeToo) :
    InStep next bytes (if size = 0 then [] else [⟨kind, size⟩])
      bytes.withReturns (if sizeToo = 0 then [] else [⟨kind, sizeToo⟩]) := by
  simpa using InStep.run kind aligned (.exact _)

/-- The bodies of both pages are cut in step, and both are closed or neither is. -/
theorem body_inStep (named : enclosure.IsNamed) {bytes : Bytes}
    (noReturn : Byte.carriageReturn ∉ bytes) :
    InStep next bytes (body enclosure bytes).1 bytes.withReturns
        (body enclosure bytes.withReturns).1 ∧
      (body enclosure bytes.withReturns).2 = (body enclosure bytes).2 := by
  have text := textLength_aligned named noReturn
  have leftToo := text.drop
  generalize left : bytes.drop (textLength enclosure bytes) = stopped at leftToo
  have noReturnLater : Byte.carriageReturn ∉ stopped :=
    fun member => noReturn (List.mem_of_mem_drop (left.symm ▸ member))
  by_cases ended : stopped = []
  · subst ended
    rw [body_of_cutOff left, body_of_cutOff leftToo]
    exact ⟨.onlyRun .bodyText text, rfl⟩
  have closers := terminator?_counterparts named noReturnLater
  have stops := stops_textLength left ended
  generalize found : terminator? enclosure stopped = closer at closers stops
  generalize foundToo : terminator? enclosure (withReturns stopped) = closerToo at closers
  cases closers with
  | some counterparts =>
      rw [body_of_closed left found, body_of_closed leftToo foundToo]
      refine ⟨.run .bodyText text ?_, rfl⟩
      rw [left]
      exact .single counterparts
  | none =>
      have starts : startsVariable stopped := by simpa using stops
      have startsToo : startsVariable (withReturns stopped) := by rwa [startsVariable_withReturns]
      have sigiled := variableLength_aligned starts
      have shorter : (stopped.drop (variableLength stopped)).length < bytes.length := by
        have positive := List.length_pos_iff.mpr ended
        have short := congrArg List.length left
        rw [List.length_drop] at short ⊢
        rw [variableLength]
        omega
      have noReturnBehind : Byte.carriageReturn ∉ stopped.drop (variableLength stopped) :=
        fun member => noReturnLater (List.mem_of_mem_drop member)
      obtain ⟨later, closed⟩ := body_inStep named noReturnBehind
      rw [body_of_variable left starts found, body_of_variable leftToo startsToo foundToo]
      simp only [sigiled.drop]
      refine ⟨.run .bodyText text ?_, closed⟩
      rw [left]
      exact .pair ⟨rfl, sigiled⟩ later
  termination_by bytes.length
  decreasing_by exact shorter

end Lexeme

/-- Both cuts are followed by the same mode, and their lexemes are cut in step. -/
structure Cut.InStep (ahead other : Bytes) (cut cutToo : Cut) : Prop where
  next : cutToo.next = cut.next
  lexemes : Lexeme.InStep cut.next ahead cut.lexemes other cutToo.lexemes

namespace Mode

open Bytes (Aligned withReturns)

variable {bytes rest ahead other : Bytes} {byte : UInt8}

theorem cutText_inStep (noReturn : Byte.carriageReturn ∉ bytes) :
    Cut.InStep bytes bytes.withReturns (cutText bytes) (cutText bytes.withReturns) := by
  have tags := Lexeme.firstTag?_sameTag noReturn (.zero bytes)
  rw [cutText, cutText]
  generalize Lexeme.firstTag? bytes 0 = found at tags
  generalize Lexeme.firstTag? bytes.withReturns 0 = other at tags
  cases tags with
  | none => exact ⟨rfl, .onlyRun .inlineHtml (.all bytes)⟩
  | some same => exact ⟨rfl, .run .inlineHtml same.place (.single same.tag)⟩

theorem cutBody_inStep {enclosure : Enclosure} (named : enclosure.IsNamed)
    (noReturn : Byte.carriageReturn ∉ bytes) :
    Cut.InStep bytes bytes.withReturns (cutBody enclosure bytes)
      (cutBody enclosure bytes.withReturns) := by
  have cutInStep (next : Option Mode) :
      Lexeme.InStep next bytes (Lexeme.body enclosure bytes).1 bytes.withReturns
          (Lexeme.body enclosure bytes.withReturns).1 ∧
        (Lexeme.body enclosure bytes.withReturns).2 = (Lexeme.body enclosure bytes).2 :=
    Lexeme.body_inStep named noReturn
  unfold cutBody
  generalize Lexeme.body enclosure bytes = parts at cutInStep ⊢
  generalize Lexeme.body enclosure bytes.withReturns = partsToo at cutInStep ⊢
  obtain ⟨lexemes, closed⟩ := parts
  obtain ⟨others, closedToo⟩ := partsToo
  obtain rfl : closedToo = closed := (cutInStep none).2
  cases closedToo with
  | true => exact ⟨rfl, (cutInStep (some .script)).1⟩
  | false => exact ⟨rfl, (cutInStep none).1⟩

theorem one_inStep {kind : Kind} {size sizeToo : Nat} (aligned : Aligned bytes size sizeToo) :
    Cut.InStep bytes bytes.withReturns (.one kind size) (.one kind sizeToo) :=
  ⟨rfl, .single ⟨rfl, aligned⟩⟩

/-- Cuts that are chosen by the same condition are compared choice by choice. -/
theorem ite_inStep {condition conditionToo : Prop} [Decidable condition]
    [Decidable conditionToo] {yes no yesToo noToo : Cut} (same : conditionToo ↔ condition)
    (ifTrue : condition → Cut.InStep ahead other yes yesToo)
    (ifFalse : ¬ condition → Cut.InStep ahead other no noToo) :
    Cut.InStep ahead other (if condition then yes else no)
      (if conditionToo then yesToo else noToo) := by
  by_cases holds : condition
  · rw [if_pos holds, if_pos (same.mpr holds)]
    exact ifTrue holds
  · rw [if_neg holds, if_neg (mt same.mp holds)]
    exact ifFalse holds

theorem cutBlockComment_inStep {first second : UInt8} (firstNotFeed : first ≠ Byte.lineFeed)
    (secondNotFeed : second ≠ Byte.lineFeed) (rest : Bytes) :
    Cut.InStep (first :: second :: rest) (first :: second :: rest.withReturns)
      (cutBlockComment (first :: second :: rest))
      (cutBlockComment (first :: second :: rest.withReturns)) := by
  have lengths := Lexeme.blockCommentLength?_aligned firstNotFeed secondNotFeed rest
  have whole := Aligned.all (first :: second :: rest)
  have image : withReturns (first :: second :: rest) = first :: second :: rest.withReturns := by
    rw [Bytes.withReturns_cons firstNotFeed, Bytes.withReturns_cons secondNotFeed]
  rw [cutBlockComment, cutBlockComment, Lexeme.blockCommentKind_withReturns]
  generalize Lexeme.blockCommentLength? (first :: second :: rest) = length at lengths
  generalize Lexeme.blockCommentLength? (first :: second :: rest.withReturns) = lengthToo
    at lengths
  rw [← image]
  cases lengths with
  | none => exact ⟨rfl, .single ⟨rfl, whole⟩⟩
  | some aligned => exact one_inStep aligned

theorem cutSingleQuoted_inStep {quote : UInt8} (notFeed : quote ≠ Byte.lineFeed) (rest : Bytes) :
    Cut.InStep (quote :: rest) (quote :: rest.withReturns)
      (cutSingleQuoted (quote :: rest)) (cutSingleQuoted (quote :: rest.withReturns)) := by
  have lengths := Lexeme.singleQuoteLength?_aligned rest
  have whole := Aligned.all (quote :: rest)
  rw [cutSingleQuoted, cutSingleQuoted]
  simp only [List.drop_succ_cons, List.drop_zero]
  generalize Lexeme.singleQuoteLength? rest = length at lengths
  generalize Lexeme.singleQuoteLength? rest.withReturns = lengthToo at lengths
  rw [← Bytes.withReturns_cons notFeed]
  cases lengths with
  | none => exact ⟨rfl, .single ⟨rfl, whole⟩⟩
  | some aligned => exact one_inStep (aligned.cons notFeed)

theorem cutOperator_inStep (notFeed : byte ≠ Byte.lineFeed) (rest : Bytes) :
    Cut.InStep (byte :: rest) (byte :: rest.withReturns)
      (cutOperator (byte :: rest)) (cutOperator (byte :: rest.withReturns)) := by
  have counterparts := Lexeme.operator_counterparts notFeed rest
  rw [cutOperator, cutOperator]
  generalize Lexeme.operator (byte :: rest.withReturns) = counterpart at counterparts
  rw [← Bytes.withReturns_cons notFeed]
  exact ⟨rfl, .single counterparts⟩

theorem cutHeredoc_inStep (notFeed : byte ≠ Byte.lineFeed)
    (noReturn : Byte.carriageReturn ∉ byte :: rest) :
    Cut.InStep (byte :: rest) (byte :: rest.withReturns)
      (cutHeredoc (byte :: rest)) (cutHeredoc (byte :: rest.withReturns)) := by
  have operators := cutOperator_inStep notFeed rest
  rw [← Bytes.withReturns_cons notFeed] at operators ⊢
  generalize byte :: rest = bytes at noReturn operators
  cases found : Heredoc.header? bytes with
  | none =>
      rw [cutHeredoc, cutHeredoc, found, Heredoc.header?_withReturns_of_none noReturn found]
      exact operators
  | some header =>
      obtain ⟨text, after, -, written, -⟩ := Heredoc.exists_isHeader found
      obtain ⟨size, foundToo, aligned⟩ := Heredoc.header?_withReturns_of_some noReturn found
      have closings := Heredoc.closingLength?_aligned written.isName (bytes.drop header.size)
      rw [cutHeredoc, cutHeredoc, found, foundToo]
      simp only [aligned.drop]
      generalize Heredoc.closingLength? header.label (bytes.drop header.size) = length at closings
      generalize Heredoc.closingLength? header.label (withReturns (bytes.drop header.size)) =
        lengthToo at closings
      cases closings with
      | none => exact ⟨rfl, .single ⟨rfl, aligned⟩⟩
      | some closing => exact ⟨rfl, .pair ⟨rfl, aligned⟩ (.single ⟨rfl, closing⟩)⟩

/-- A line comment that ends before a line feed takes the return there. -/
theorem cutLineComment_inStep (bytes : Bytes) :
    Cut.InStep bytes bytes.withReturns (.one .comment (Lexeme.lineCommentLength bytes))
      (.one .comment (Lexeme.lineCommentLength bytes.withReturns)) := by
  rcases Lexeme.lineCommentLength_withReturns bytes with
    aligned | ⟨front, rest, rfl, plain, length, lengthToo⟩
  · exact one_inStep aligned
  · have split : withReturns (front ++ Byte.lineFeed :: rest) =
        (front ++ [Byte.carriageReturn]) ++ Byte.lineFeed :: withReturns rest := by
      rw [Bytes.withReturns_append, Bytes.withReturns_of_not_mem plain, Bytes.withReturns_lineFeed,
        List.append_assoc]
      rfl
    have width : front.length + 1 = (front ++ [Byte.carriageReturn]).length := by simp
    have feeds : (front ++ [Byte.carriageReturn]).count Byte.lineFeed =
        front.count Byte.lineFeed := by
      rw [List.count_append]
      rfl
    rw [length, lengthToo, split, width]
    exact ⟨rfl, .cons feeds (.done (.inr ⟨rfl, Bytes.withReturns_lineFeed rest⟩))⟩

theorem cutName_inStep (starts : bytes.startsWhere Byte.isNameStart) :
    Cut.InStep bytes bytes.withReturns
      (.one (Kind.ofName (bytes.take (Bytes.nameLength bytes))) (Bytes.nameLength bytes))
      (.one (Kind.ofName (bytes.withReturns.take (Bytes.nameLength bytes.withReturns)))
        (Bytes.nameLength bytes.withReturns)) := by
  have aligned := Bytes.nameLength_aligned bytes
  obtain ⟨name, after, split, isName, -, length⟩ :=
    Bytes.exists_name (Nat.ne_of_gt (Bytes.nameLength_pos starts))
  have plain : Byte.lineFeed ∉ bytes.take (Bytes.nameLength bytes) := by
    rw [length, split, List.take_left]
    exact isName.not_mem_lineFeed
  rw [aligned.take, Bytes.withReturns_of_not_mem plain]
  exact one_inStep aligned

theorem cutCloseTag_inStep {first second : UInt8} {rest : Bytes}
    (notFeed : first ≠ Byte.lineFeed) (secondNotFeed : second ≠ Byte.lineFeed)
    (noReturn : Byte.carriageReturn ∉ first :: second :: rest) :
    let tag (bytes : Bytes) : Cut :=
      { lexemes := [⟨.closeTag, Lexeme.closeTagLength bytes⟩], next := some .text }
    Cut.InStep (first :: second :: rest) (first :: second :: rest.withReturns)
      (tag (first :: second :: rest)) (tag (first :: second :: rest.withReturns)) := by
  intro tag
  have noReturnBehind := (List.ne_and_not_mem_of_not_mem_cons noReturn).2
  have aligned := Lexeme.closeTagLength_aligned notFeed secondNotFeed
    (List.ne_and_not_mem_of_not_mem_cons noReturnBehind).2
  have image : withReturns (first :: second :: rest) = first :: second :: rest.withReturns := by
    rw [Bytes.withReturns_cons notFeed, Bytes.withReturns_cons secondNotFeed]
  simp only [tag]
  generalize Lexeme.closeTagLength (first :: second :: withReturns rest) = size at aligned ⊢
  rw [← image]
  exact ⟨rfl, .single ⟨rfl, aligned⟩⟩

/-- Unless it is a line feed, the byte in front is the same in both pages, and so is what
it begins. -/
theorem cutScript_cons_inStep {first : UInt8} {rest : Bytes}
    (noReturn : Byte.carriageReturn ∉ first :: rest) (notFeed : first ≠ Byte.lineFeed) :
    Cut.InStep (first :: rest) (first :: rest.withReturns) (cutScript (first :: rest))
      (cutScript (first :: rest.withReturns)) := by
  have image := Bytes.withReturns_cons notFeed rest
  have second (special : UInt8) (notReturn : Byte.carriageReturn ≠ special)
      (notFeed : Byte.lineFeed ≠ special) :
      Bytes.startsWhere (· == special) (withReturns rest) =
        Bytes.startsWhere (· == special) rest :=
    Bytes.startsWhere_beq_withReturns notReturn notFeed rest
  have digit : Bytes.startsWhere Byte.isDigit (withReturns rest) =
      Bytes.startsWhere Byte.isDigit rest :=
    Bytes.startsWhere_withReturns Lexeme.isDigit_noBreak rest
  have sigil : Lexeme.startsVariable (first :: withReturns rest) =
      Lexeme.startsVariable (first :: rest) := by
    rw [← image, Lexeme.startsVariable_withReturns]
  have one := Aligned.one notFeed rest
  simp only [cutScript, second Byte.greater (by decide) (by decide),
    second Byte.slash (by decide) (by decide), second Byte.star (by decide) (by decide),
    digit, sigil]
  -- One step for each of the branches of `cutScript`, in their order.
  refine ite_inStep .rfl (fun _ => ?_) fun _ => ?_
  · rw [← image]
    exact one_inStep (Bytes.runLength_aligned (by decide) _)
  refine ite_inStep .rfl (fun closes => ?_) fun _ => ?_
  · obtain ⟨greater, rest, rfl, isGreater⟩ :=
      Bytes.exists_cons_of_startsWhere (Bool.and_eq_true_iff.mp closes).2
    obtain rfl := eq_of_beq isGreater
    rw [Bytes.withReturns_cons (by decide)]
    exact cutCloseTag_inStep notFeed (by decide) noReturn
  refine ite_inStep .rfl (fun _ => ?_) fun _ => ?_
  · rw [← image]
    exact cutLineComment_inStep (first :: rest)
  refine ite_inStep .rfl (fun opens => ?_) fun _ => ?_
  · obtain ⟨star, rest, rfl, isStar⟩ :=
      Bytes.exists_cons_of_startsWhere (Bool.and_eq_true_iff.mp opens).2
    obtain rfl := eq_of_beq isStar
    rw [Bytes.withReturns_cons (by decide)]
    exact cutBlockComment_inStep notFeed (by decide) rest
  refine ite_inStep .rfl (fun starts => ?_) fun _ => ?_
  · rw [← image]
    exact one_inStep (Lexeme.variableLength_aligned starts)
  refine ite_inStep .rfl (fun _ => ?_) fun _ => ?_
  · have counterparts := Lexeme.number_counterparts notFeed rest
    generalize Lexeme.number (first :: withReturns rest) = counterpart at counterparts ⊢
    rw [← image]
    exact ⟨rfl, .single counterparts⟩
  refine ite_inStep .rfl (fun _ => ?_) fun _ => ?_
  · exact cutSingleQuoted_inStep notFeed rest
  refine ite_inStep .rfl (fun _ => ?_) fun _ => ?_
  · rw [← image]
    exact ⟨rfl, .single ⟨rfl, one⟩⟩
  refine ite_inStep .rfl (fun _ => ?_) fun _ => ?_
  · rw [← image]
    exact ⟨rfl, .single ⟨rfl, one⟩⟩
  refine ite_inStep .rfl (fun starts => ?_) fun _ => ?_
  · rw [← image]
    exact cutName_inStep starts
  · exact cutHeredoc_inStep notFeed noReturn

theorem cutScript_inStep (noReturn : Byte.carriageReturn ∉ bytes) :
    Cut.InStep bytes bytes.withReturns (cutScript bytes) (cutScript bytes.withReturns) := by
  cases bytes with
  | nil => exact ⟨rfl, .exact []⟩
  | cons first rest =>
      by_cases feed : first = Byte.lineFeed
      · subst feed
        exact one_inStep (Bytes.runLength_aligned (by decide) (Byte.lineFeed :: rest))
      · rw [Bytes.withReturns_cons feed]
        exact cutScript_cons_inStep noReturn feed

/-- A scan that stands behind a carriage return goes on with the same whitespace as one
that has the line feed alone before it. -/
theorem cutScript_lineFeed_inStep (rest : Bytes) :
    Cut.InStep (Byte.lineFeed :: rest) (Byte.lineFeed :: rest.withReturns)
      (cutScript (Byte.lineFeed :: rest)) (cutScript (Byte.lineFeed :: rest.withReturns)) := by
  have spaces : Aligned rest (Bytes.runLength Byte.isSpace rest)
      (Bytes.runLength Byte.isSpace rest.withReturns) := Bytes.runLength_aligned rfl rest
  change Cut.InStep _ _ (.one .whitespace (Bytes.runLength Byte.isSpace rest + 1))
    (.one .whitespace (Bytes.runLength Byte.isSpace rest.withReturns + 1))
  generalize Bytes.runLength Byte.isSpace rest = size at spaces ⊢
  generalize Bytes.runLength Byte.isSpace rest.withReturns = sizeToo at spaces ⊢
  obtain ⟨run, after⟩ := spaces
  have feeds : (Byte.lineFeed :: withReturns run).count Byte.lineFeed =
      (Byte.lineFeed :: run).count Byte.lineFeed := by
    rw [List.count_cons_self, List.count_cons_self, Bytes.count_withReturns]
  rw [Bytes.withReturns_append]
  exact ⟨rfl, .cons feeds (.exact after)⟩

/-- Where a return has been read already, a line feed is next in both pages. -/
theorem exists_lineFeed {bytes other : Bytes} (noReturn : Byte.carriageReturn ∉ bytes)
    (returned : bytes.withReturns = Byte.carriageReturn :: other) :
    ∃ rest, bytes = Byte.lineFeed :: rest ∧ other = Byte.lineFeed :: withReturns rest := by
  cases bytes with
  | nil => contradiction
  | cons byte rest =>
      by_cases feed : byte = Byte.lineFeed
      · subst feed
        exact ⟨rest, rfl, (List.cons.inj returned).2.symm⟩
      · rw [Bytes.withReturns_cons feed] at returned
        exact absurd (List.cons.inj returned).1.symm
          (List.ne_and_not_mem_of_not_mem_cons noReturn).1

/-- Pages that stand abreast are cut in step. -/
theorem cut_inStep {mode : Mode} (named : mode.IsNamed) (noReturn : Byte.carriageReturn ∉ bytes)
    (abreast : Abreast (some mode) bytes other) :
    Cut.InStep bytes other (mode.cut bytes) (mode.cut other) := by
  rcases abreast with rfl | ⟨inScript, returned⟩
  · cases mode with
    | text => exact cutText_inStep noReturn
    | script => exact cutScript_inStep noReturn
    | body enclosure => exact cutBody_inStep named noReturn
  · cases inScript
    obtain ⟨rest, rfl, rfl⟩ := exists_lineFeed noReturn returned
    exact cutScript_lineFeed_inStep rest

/-- Only a header makes a heredoc follow, and its label is a name. -/
theorem isNamed_of_cut_next {mode following : Mode}
    (goesOn : (mode.cut bytes).next = some following) : following.IsNamed := by
  cases mode with
  | text =>
      have shape := cutText_isTextCut bytes
      rw [cut] at goesOn
      generalize cutText bytes = result at shape goesOn
      cases shape with
      | tagged =>
          cases goesOn
          trivial
      | untagged => contradiction
  | script =>
      have shape := cutScript_isScriptCut bytes
      rw [cut] at goesOn
      generalize cutScript bytes = result at shape goesOn
      cases shape with
      | heredoc written =>
          cases goesOn
          exact written.isName
      | finished => contradiction
      | cutOffQuote => contradiction
      | _ =>
          cases goesOn
          trivial
  | body enclosure =>
      have shape := cutBody_isBodyCut enclosure bytes
      rw [cut] at goesOn
      generalize cutBody enclosure bytes = result at shape goesOn
      cases shape with
      | closed =>
          cases goesOn
          trivial
      | cutOff => contradiction

end Mode

end PageScript
