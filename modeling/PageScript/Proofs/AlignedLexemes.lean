import Mathlib.Data.List.Find
import PageScript.Proofs.Characters
import PageScript.Proofs.Returns

/-!
# Lexemes of pages with returns

Every construct is as long in a page with carriage returns as in the page without, up to
the returns in it.  The one exception is a line comment, which ends before a line feed and
so takes the carriage return there.
-/

namespace PageScript

namespace Bytes.Aligned

variable {bytes : Bytes} {count other : Nat}

/-- No bytes are no bytes with returns. -/
theorem eq_zero_iff (aligned : Aligned bytes count other) : other = 0 ↔ count = 0 := by
  obtain ⟨front, back⟩ := aligned
  cases front with
  | nil => simp
  | cons byte front => by_cases feed : byte = Byte.lineFeed <;> simp [withReturns, feed]

end Bytes.Aligned

namespace Lexeme

open Bytes (Aligned AlignedIfFound withReturns)

/-- Lexemes of one kind that take the same bytes of both pages. -/
structure Counterparts (bytes : Bytes) (lexeme other : Lexeme) : Prop where
  kind : other.kind = lexeme.kind
  size : Aligned bytes lexeme.size other.size

variable {bytes rest : Bytes} {byte : UInt8}

section Tags

/-- As far as no carriage return has come up, both pages have the same bytes. -/
theorem take_withReturns (bytes : Bytes) (count : Nat) :
    (withReturns bytes).take count = bytes.take count ∨
      Byte.carriageReturn ∈ (withReturns bytes).take count ∧
        Byte.lineFeed ∈ bytes.take count := by
  induction bytes generalizing count with
  | nil => exact .inl rfl
  | cons byte rest ih =>
      cases count with
      | zero => exact .inl rfl
      | succ count =>
          by_cases feed : byte = Byte.lineFeed
          · subst feed
            exact .inr ⟨List.mem_cons_self, List.mem_cons_self⟩
          · rw [Bytes.withReturns_cons feed, List.take_succ_cons, List.take_succ_cons]
            rcases ih count with same | ⟨returned, fed⟩
            · exact .inl (congrArg (byte :: ·) same)
            · exact .inr ⟨List.mem_cons_of_mem _ returned, List.mem_cons_of_mem _ fed⟩

theorem not_mem_of_openTagText {tag : Bytes} (long : tag.map Byte.toLower = openTagText) :
    Byte.lineFeed ∉ tag ∧ Byte.carriageReturn ∉ tag := by
  have absent (byte : UInt8) (lowered : Byte.toLower byte ∉ openTagText) : byte ∉ tag :=
    fun member => lowered (long ▸ List.mem_map_of_mem member)
  exact ⟨absent _ (by decide), absent _ (by decide)⟩

/-- The letters of the long tag stand at the front of both pages. -/
theorem openTagText_withReturns (bytes : Bytes) :
    ((withReturns bytes).take 5).map Byte.toLower = openTagText ↔
      (bytes.take 5).map Byte.toLower = openTagText := by
  rcases take_withReturns bytes 5 with same | ⟨returned, fed⟩
  · rw [same]
  · exact iff_of_false (fun long => (not_mem_of_openTagText long).2 returned)
      fun long => (not_mem_of_openTagText long).1 fed

theorem openTag?_counterparts (noReturn : Byte.carriageReturn ∉ bytes) :
    Option.Rel (Counterparts bytes) (openTag? bytes) (openTag? bytes.withReturns) := by
  have echo : echoTagText.isPrefixOf bytes.withReturns = echoTagText.isPrefixOf bytes :=
    Bytes.isPrefixOf_withReturns (by decide) (by decide) bytes
  rw [openTag?, openTag?, echo]
  split
  · next short =>
      obtain ⟨rest, rfl⟩ := List.isPrefixOf_iff_prefix.mp short
      exact .some ⟨rfl, .of_not_mem (by decide) rest⟩
  · by_cases long : (bytes.take 5).map Byte.toLower = openTagText
    · rw [if_pos long, if_pos ((openTagText_withReturns bytes).mpr long)]
      have five := length_of_openTagText long
      have tag : Aligned bytes 5 5 := by
        have aligned := Aligned.of_not_mem (not_mem_of_openTagText long).1 (bytes.drop 5)
        rwa [List.take_append_drop, five] at aligned
      have noReturnLater : Byte.carriageReturn ∉ bytes.drop 5 :=
        fun member => noReturn (List.mem_of_mem_drop member)
      rw [tag.drop]
      have onward (count other : Nat) : Aligned (bytes.drop 5) count other →
          Aligned bytes (5 + count) (5 + other) := tag.add
      generalize bytes.drop 5 = rest at noReturnLater onward
      cases rest with
      | nil => exact .some ⟨rfl, tag⟩
      | cons following rest =>
          have notReturn := Ne.symm (List.ne_and_not_mem_of_not_mem_cons noReturnLater).1
          by_cases feed : following = Byte.lineFeed
          · subst feed
            exact .some ⟨rfl, onward 1 2 (.mk [Byte.lineFeed] rest)⟩
          · rw [Bytes.withReturns_cons feed]
            simp only [notReturn, decide_false, Bool.false_and, Bool.false_eq_true, if_false]
            split
            · exact .some ⟨rfl, onward 1 1 (.one feed rest)⟩
            · exact .none
    · rw [if_neg long, if_neg (mt (openTagText_withReturns bytes).mp long)]
      exact .none

/-- Open tags that stand behind the same bytes of both pages. -/
structure SameTag (bytes : Bytes) (found other : Nat × Lexeme) : Prop where
  place : Aligned bytes found.1 other.1
  tag : Counterparts (bytes.drop found.1) found.2 other.2

/-- Both pages have the next opener of a tag at the same place, or neither has one. -/
theorem tagOpener_aligned {start startToo : Nat} (aligned : Aligned bytes start startToo) :
    AlignedIfFound (bytes.drop start) (Bytes.offsetOf? tagOpener (bytes.drop start))
      (Bytes.offsetOf? tagOpener (bytes.withReturns.drop startToo)) := by
  rw [aligned.drop]
  exact Bytes.offsetOf?_aligned (by decide) (by decide) (by decide) _

/-- The search goes on behind an opener at the same place of both pages. -/
theorem aligned_behind_tagOpener {start startToo skipped skippedToo : Nat}
    (aligned : Aligned bytes start startToo)
    (found : Bytes.offsetOf? tagOpener (bytes.drop start) = some skipped)
    (inRest : Aligned (bytes.drop start) skipped skippedToo) :
    Aligned bytes (start + skipped + 2) (startToo + skippedToo + 2) := by
  obtain ⟨front, back, split, rfl⟩ := Bytes.exists_split_of_offsetOf? found
  refine (aligned.add inRest).add ?_
  rw [← List.drop_drop, split, List.drop_left]
  exact .of_not_mem (by decide) back

/-- The searches in both pages come upon the same openers, so they find the same tag. -/
theorem firstTag?_sameTag (noReturn : Byte.carriageReturn ∉ bytes) {start startToo : Nat}
    (aligned : Aligned bytes start startToo) :
    Option.Rel (SameTag bytes) (firstTag? bytes start)
      (firstTag? bytes.withReturns startToo) := by
  rw [firstTag?_eq bytes, firstTag?_eq bytes.withReturns]
  have openers := tagOpener_aligned aligned
  generalize found : Bytes.offsetOf? tagOpener (bytes.drop start) = opener at openers
  generalize Bytes.offsetOf? tagOpener (bytes.withReturns.drop startToo) = openerToo at openers
  cases openers with
  | none => exact .none
  | @some skipped skippedToo inRest =>
      have place := aligned.add inRest
      have noReturnLater : Byte.carriageReturn ∉ bytes.drop (start + skipped) :=
        fun member => noReturn (List.mem_of_mem_drop member)
      have tags := openTag?_counterparts noReturnLater
      rw [← place.drop] at tags
      simp only [Option.bind_some]
      generalize openTag? (bytes.drop _) = tag at tags
      generalize openTag? (bytes.withReturns.drop _) = tagToo at tags
      cases tags with
      | some same => exact .some ⟨place, same⟩
      | none => exact firstTag?_sameTag noReturn (aligned_behind_tagOpener aligned found inRest)
  termination_by bytes.length - start
  decreasing_by
    have inside := behind_tagOpener_le found
    omega

theorem closeTagLength_aligned {first second : UInt8} (firstNotFeed : first ≠ Byte.lineFeed)
    (secondNotFeed : second ≠ Byte.lineFeed) (noReturn : Byte.carriageReturn ∉ rest) :
    Aligned (first :: second :: rest) (closeTagLength (first :: second :: rest))
      (closeTagLength (first :: second :: rest.withReturns)) :=
  ((Aligned.one firstNotFeed _).add (.one secondNotFeed rest)).add
    (Bytes.lineBreakLength_aligned noReturn)

end Tags

section Comments

theorem lineCommentLength_cons (notFeed : byte ≠ Byte.lineFeed)
    (goesOn : ¬ (byte = Byte.question ∧ Bytes.startsWhere (· == Byte.greater) rest)) :
    lineCommentLength (byte :: rest) = lineCommentLength rest + 1 := by
  simp only [lineCommentLength, if_neg notFeed, Bool.and_eq_true, decide_eq_true_eq,
    if_neg goesOn]

/-- A line comment ends at the same byte of both pages, unless that is a line feed: then it
takes the carriage return there. -/
theorem lineCommentLength_withReturns (bytes : Bytes) :
    Aligned bytes (lineCommentLength bytes) (lineCommentLength bytes.withReturns) ∨
      ∃ front rest, bytes = front ++ Byte.lineFeed :: rest ∧ Byte.lineFeed ∉ front ∧
        lineCommentLength bytes = front.length ∧
        lineCommentLength bytes.withReturns = front.length + 1 := by
  induction bytes with
  | nil => exact .inl (.zero [])
  | cons byte rest ih =>
      by_cases feed : byte = Byte.lineFeed
      · subst feed
        exact .inr ⟨[], rest, rfl, by simp, rfl, rfl⟩
      rw [Bytes.withReturns_cons feed]
      have closes : Bytes.startsWhere (· == Byte.greater) (withReturns rest) =
          Bytes.startsWhere (· == Byte.greater) rest :=
        Bytes.startsWhere_beq_withReturns (by decide) (by decide) rest
      by_cases closed : byte = Byte.question ∧ Bytes.startsWhere (· == Byte.greater) rest
      · have closedToo := closes.symm ▸ closed.2
        simp only [lineCommentLength, closed, closedToo, decide_true, Bool.and_self, if_true,
          ite_self]
        exact .inl (.zero _)
      · have goesOn : ¬ (byte = Byte.question ∧
            Bytes.startsWhere (· == Byte.greater) (withReturns rest)) := closes.symm ▸ closed
        rw [lineCommentLength_cons feed closed, lineCommentLength_cons feed goesOn]
        rcases ih with aligned | ⟨front, later, rfl, plain, length, other⟩
        · exact .inl (aligned.cons feed)
        · refine .inr ⟨byte :: front, later, rfl, ?_, by rw [length]; rfl, by rw [other]; rfl⟩
          exact List.not_mem_cons_of_ne_of_not_mem (Ne.symm feed) plain

theorem blockCommentLength?_aligned {first second : UInt8} (firstNotFeed : first ≠ Byte.lineFeed)
    (secondNotFeed : second ≠ Byte.lineFeed) (rest : Bytes) :
    AlignedIfFound (first :: second :: rest) (blockCommentLength? (first :: second :: rest))
      (blockCommentLength? (first :: second :: rest.withReturns)) := by
  have found : AlignedIfFound rest (Bytes.offsetOf? blockCloser rest)
      (Bytes.offsetOf? blockCloser rest.withReturns) :=
    Bytes.offsetOf?_aligned (by decide) (by decide) (by decide) rest
  change AlignedIfFound _ ((Bytes.offsetOf? blockCloser rest).map (· + 4))
    ((Bytes.offsetOf? blockCloser rest.withReturns).map (· + 4))
  generalize here : Bytes.offsetOf? blockCloser rest = result at found
  generalize Bytes.offsetOf? blockCloser rest.withReturns = counterpart at found
  cases found with
  | none => exact .none
  | @some count other aligned =>
      obtain ⟨front, back, rfl, rfl⟩ := Bytes.exists_split_of_offsetOf? here
      have closer : Aligned ((front ++ (blockCloser ++ back)).drop front.length) 2 2 := by
        rw [List.drop_left]
        exact .of_not_mem (by decide) back
      have opener := (Aligned.one firstNotFeed _).add
        (.one secondNotFeed (front ++ (blockCloser ++ back)))
      have whole := opener.add (aligned.add closer)
      rw [Nat.add_comm 2, Nat.add_comm 2] at whole
      exact .some whole

theorem blockCommentKind_cons (first second : UInt8) (rest : Bytes) :
    blockCommentKind (first :: second :: rest) =
      if rest.startsWhere (· == Byte.star) && Bytes.startsWhere Byte.isSpace (rest.drop 1) then
        .docComment
      else .comment := by
  cases rest with
  | nil => rfl
  | cons third rest =>
      cases rest with
      | nil => simp [blockCommentKind]
      | cons following rest => simp [blockCommentKind]

theorem blockCommentKind_withReturns (first second : UInt8) (rest : Bytes) :
    blockCommentKind (first :: second :: rest.withReturns) =
      blockCommentKind (first :: second :: rest) := by
  rw [blockCommentKind_cons, blockCommentKind_cons,
    Bytes.startsWhere_beq_withReturns (by decide) (by decide)]
  by_cases star : rest.startsWhere (· == Byte.star)
  · obtain ⟨third, rest, rfl, isStar⟩ := Bytes.exists_cons_of_startsWhere star
    have notFeed : third ≠ Byte.lineFeed := by
      rintro rfl
      contradiction
    rw [(Aligned.one notFeed rest).drop, Bytes.startsWhere_withReturns (by decide)]
  · simp [star]

end Comments

section Strings

theorem singleQuoteLength?_of_ne (notQuote : byte ≠ Byte.singleQuote)
    (notBackslash : byte ≠ Byte.backslash) (rest : Bytes) :
    singleQuoteLength? (byte :: rest) = (singleQuoteLength? rest).map (· + 1) := by
  rw [singleQuoteLength?.eq_def]
  simp only [if_neg notQuote, if_neg notBackslash]

theorem singleQuoteLength?_escape (escaped : UInt8) (after : Bytes) :
    singleQuoteLength? (Byte.backslash :: escaped :: after) =
      (singleQuoteLength? after).map (· + 2) := rfl

theorem singleQuoteLength?_aligned (bytes : Bytes) :
    AlignedIfFound bytes (singleQuoteLength? bytes) (singleQuoteLength? bytes.withReturns) := by
  fun_induction singleQuoteLength? bytes with
  | case1 => exact .none
  | case2 rest =>
      rw [Bytes.withReturns_cons (by decide), singleQuoteLength?_quote]
      exact .some (.one (by decide) rest)
  | case3 => exact .none
  | case4 escaped after _ ih =>
      rw [Bytes.withReturns_cons (by decide)]
      by_cases feed : escaped = Byte.lineFeed
      · subst feed
        rw [Bytes.withReturns_lineFeed, singleQuoteLength?_escape,
          singleQuoteLength?_of_ne (by decide) (by decide), Option.map_map]
        exact AlignedIfFound.map ih fun aligned => aligned.lineFeed.cons (by decide)
      · rw [Bytes.withReturns_cons feed, singleQuoteLength?_escape]
        exact AlignedIfFound.map ih fun aligned => (aligned.cons feed).cons (by decide)
  | case5 byte rest notQuote notBackslash ih =>
      by_cases feed : byte = Byte.lineFeed
      · subst feed
        rw [Bytes.withReturns_lineFeed, singleQuoteLength?_of_ne (by decide) (by decide),
          singleQuoteLength?_of_ne (by decide) (by decide), Option.map_map]
        exact AlignedIfFound.map ih Aligned.lineFeed
      · rw [Bytes.withReturns_cons feed, singleQuoteLength?_of_ne notQuote notBackslash]
        exact AlignedIfFound.map ih (Aligned.cons feed)

theorem startsVariable_withReturns (bytes : Bytes) :
    startsVariable bytes.withReturns = startsVariable bytes := by
  cases bytes with
  | nil => rfl
  | cons byte rest =>
      by_cases feed : byte = Byte.lineFeed
      · subst feed
        rfl
      · rw [Bytes.withReturns_cons feed, startsVariable, startsVariable,
          Bytes.startsWhere_withReturns (by decide)]

theorem variableLength_aligned (starts : startsVariable bytes) :
    Aligned bytes (variableLength bytes) (variableLength bytes.withReturns) := by
  cases bytes with
  | nil => contradiction
  | cons byte rest =>
      have notFeed : byte ≠ Byte.lineFeed := by
        rintro rfl
        contradiction
      rw [Bytes.withReturns_cons notFeed]
      exact (Aligned.one notFeed rest).add (Bytes.nameLength_aligned rest)

end Strings

section Operators

theorem operator_counterparts (notFeed : byte ≠ Byte.lineFeed) (rest : Bytes) :
    Counterparts (byte :: rest) (operator (byte :: rest))
      (operator (byte :: rest.withReturns)) := by
  have plain : ∀ text ∈ operators, Byte.lineFeed ∉ text ∧ Byte.carriageReturn ∉ text := by decide
  have same : operators.find? (·.isPrefixOf (byte :: rest.withReturns)) =
      operators.find? (·.isPrefixOf (byte :: rest)) := by
    refine List.find?_congr fun text member => ?_
    obtain ⟨noFeed, noReturn⟩ := plain text member
    rw [← Bytes.withReturns_cons notFeed, Bytes.isPrefixOf_withReturns noFeed noReturn]
  rw [operator, operator, same]
  cases found : operators.find? (·.isPrefixOf (byte :: rest)) with
  | none => exact ⟨rfl, .one notFeed rest⟩
  | some text =>
      obtain ⟨back, split⟩ := List.isPrefixOf_iff_prefix.mp
        (List.find?_some (p := fun text : Bytes => text.isPrefixOf (byte :: rest)) found)
      rw [← split]
      exact ⟨rfl, .of_not_mem (plain text (List.mem_of_find?_eq_some found)).1 back⟩

end Operators

section Numbers

theorem isDigit_noBreak : Byte.isDigit Byte.carriageReturn = Byte.isDigit Byte.lineFeed := rfl

theorem radixDigit?_noBreak {letter : UInt8} {isDigit : UInt8 → Bool}
    (found : radixDigit? letter = some isDigit) :
    isDigit Byte.carriageReturn = isDigit Byte.lineFeed := by
  unfold radixDigit? at found
  simp only at found
  repeat' split at found
  all_goals first | contradiction | (cases found; decide)

theorem digitRun_aligned {isDigit : UInt8 → Bool}
    (same : isDigit Byte.carriageReturn = isDigit Byte.lineFeed) (bytes : Bytes) :
    Aligned bytes (digitRun isDigit bytes) (digitRun isDigit bytes.withReturns) :=
  Bytes.runLength_aligned (by rw [same]; rfl) bytes

theorem radixLength?_aligned (notFeed : byte ≠ Byte.lineFeed) (rest : Bytes) :
    AlignedIfFound (byte :: rest) (radixLength? (byte :: rest))
      (radixLength? (byte :: rest.withReturns)) := by
  cases rest with
  | nil => exact .none
  | cons letter digits =>
      by_cases feed : letter = Byte.lineFeed
      · subst feed
        simp only [Bytes.withReturns_lineFeed, radixLength?]
        split <;> exact .none
      · rw [Bytes.withReturns_cons feed, radixLength?, radixLength?]
        split
        · cases found : radixDigit? letter with
          | none => exact .none
          | some isDigit =>
              have same := radixDigit?_noBreak found
              simp only [Bytes.startsWhere_withReturns same]
              split
              · exact .some (((Aligned.one notFeed _).add (.one feed digits)).add
                  (digitRun_aligned same digits))
              · exact .none
        · exact .none

theorem fractionLength_aligned (bytes : Bytes) :
    Aligned bytes (fractionLength bytes) (fractionLength bytes.withReturns) := by
  cases bytes with
  | nil => exact .zero []
  | cons byte rest =>
      by_cases feed : byte = Byte.lineFeed
      · subst feed
        exact .zero _
      · rw [Bytes.withReturns_cons feed, fractionLength, fractionLength]
        split
        · exact (Aligned.one feed rest).add (digitRun_aligned isDigit_noBreak rest)
        · exact .zero _

theorem signLength_aligned (bytes : Bytes) :
    Aligned bytes (signLength bytes) (signLength bytes.withReturns) := by
  rw [signLength, signLength, Bytes.startsWhere_withReturns (by decide)]
  split
  · next signed =>
      obtain ⟨sign, rest, rfl, isSign⟩ := Bytes.exists_cons_of_startsWhere signed
      refine .one ?_ rest
      rintro rfl
      contradiction
  · exact .zero bytes

theorem exponentLength?_aligned (bytes : Bytes) :
    AlignedIfFound bytes (exponentLength? bytes) (exponentLength? bytes.withReturns) := by
  cases bytes with
  | nil => exact .none
  | cons letter rest =>
      by_cases feed : letter = Byte.lineFeed
      · subst feed
        have noLetter : Byte.toLower Byte.lineFeed ≠ Byte.ofChar 'e' := by decide
        have noLetterToo : Byte.toLower Byte.carriageReturn ≠ Byte.ofChar 'e' := by decide
        simp only [Bytes.withReturns_lineFeed, exponentLength?, noLetter, noLetterToo]
        exact .none
      · have signed := signLength_aligned rest
        rw [Bytes.withReturns_cons feed]
        simp only [exponentLength?, signed.drop, Bytes.startsWhere_withReturns isDigit_noBreak]
        split
        · rw [Nat.add_assoc, Nat.add_assoc]
          exact .some ((Aligned.one feed rest).add
            (signed.add (digitRun_aligned isDigit_noBreak _)))
        · exact .none

theorem decimalNumber_counterparts (bytes : Bytes) :
    Counterparts bytes (decimalNumber bytes) (decimalNumber bytes.withReturns) := by
  have whole := digitRun_aligned isDigit_noBreak bytes
  have fraction := fractionLength_aligned (bytes.drop (digitRun Byte.isDigit bytes))
  rw [← whole.drop] at fraction
  have both := whole.add fraction
  have exponent := exponentLength?_aligned
    (bytes.drop (digitRun Byte.isDigit bytes +
      fractionLength (bytes.drop (digitRun Byte.isDigit bytes))))
  rw [← both.drop] at exponent
  unfold decimalNumber
  simp only
  generalize exponentLength? (bytes.drop _) = length at exponent ⊢
  generalize exponentLength? (bytes.withReturns.drop _) = counterpart at exponent ⊢
  cases exponent with
  | none => exact ⟨by simp only [fraction.eq_zero_iff], both⟩
  | some aligned => exact ⟨rfl, both.add aligned⟩

theorem number_counterparts (notFeed : byte ≠ Byte.lineFeed) (rest : Bytes) :
    Counterparts (byte :: rest) (number (byte :: rest)) (number (byte :: rest.withReturns)) := by
  have radix := radixLength?_aligned notFeed rest
  have decimal := decimalNumber_counterparts (byte :: rest)
  rw [Bytes.withReturns_cons notFeed] at decimal
  rw [number, number]
  generalize radixLength? (byte :: rest) = length at radix
  generalize radixLength? (byte :: rest.withReturns) = counterpart at radix
  cases radix with
  | none => exact decimal
  | some aligned => exact ⟨rfl, aligned⟩

end Numbers

end Lexeme

end PageScript
