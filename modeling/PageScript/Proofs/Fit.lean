import PageScript.Proofs.HeredocLines
import PageScript.Proofs.Placement

/-!
# Lexemes fit

Whatever is looked ahead for is found among the bytes that are left, and every piece
that is cut has at least one byte.  There is one lemma for each kind of look ahead,
then one for each construct.
-/

namespace PageScript

/-- A byte that is lowered to one that is no letter is that byte. -/
theorem Byte.eq_of_toLower_eq {byte other : UInt8} (noLetter : ¬ isLower other)
    (lowered : toLower byte = other) : byte = other := by
  rw [toLower] at lowered
  split at lowered
  · next upper =>
      simp only [isUpper, isLower, Bool.and_eq_true, decide_eq_true_eq] at upper noLetter
      grind
  · exact lowered

namespace Lexeme

/-- A lexeme covers at least one byte, and only bytes that are there. -/
structure Fits (lexeme : Lexeme) (bytes : Bytes) : Prop where
  positive : 0 < lexeme.size
  size_le : lexeme.size ≤ bytes.length

/-- How an open tag is written.  The letters of the long one may be of either case. -/
inductive IsOpenTag : Bytes → Lexeme → Prop where
  | echo {rest : Bytes} : IsOpenTag (echoTagText ++ rest) ⟨.echoTag, 3⟩
  | atEnd {letters : Bytes} :
      letters.map Byte.toLower = openTagText → IsOpenTag letters ⟨.openTag, 5⟩
  | broken {letters rest : Bytes} :
      letters.map Byte.toLower = openTagText →
      IsOpenTag (letters ++ Byte.carriageReturn :: Byte.lineFeed :: rest) ⟨.openTag, 7⟩
  | spaced {letters rest : Bytes} {space : UInt8} :
      letters.map Byte.toLower = openTagText → Byte.isSpace space →
      IsOpenTag (letters ++ space :: rest) ⟨.openTag, 6⟩

theorem openTag?_isOpenTag {bytes : Bytes} {tag : Lexeme} (found : openTag? bytes = some tag) :
    IsOpenTag bytes tag := by
  rw [openTag?] at found
  split at found
  · next short =>
      obtain ⟨rest, rfl⟩ := List.isPrefixOf_iff_prefix.mp short
      cases found
      exact .echo
  · split at found
    · next long =>
        have split := List.take_append_drop 5 bytes
        generalize bytes.take 5 = letters at long split
        generalize bytes.drop 5 = left at found split
        subst split
        split at found
        · cases found
          simpa using IsOpenTag.atEnd long
        · next following rest =>
            split at found
            · next pair =>
                simp only [Bool.and_eq_true, decide_eq_true_eq] at pair
                obtain ⟨rfl, feeds⟩ := pair
                obtain ⟨feed, rest, rfl, same⟩ := Bytes.exists_cons_of_startsWhere feeds
                cases found
                rw [beq_iff_eq.mp same]
                exact .broken long
            · split at found
              · next space =>
                  cases found
                  exact .spaced long space
              · contradiction
    · contradiction

/-- Every open tag begins with the same two bytes. -/
theorem IsOpenTag.opener_isPrefix {bytes : Bytes} {tag : Lexeme}
    (written : IsOpenTag bytes tag) : tagOpener <+: bytes := by
  have front {letters : Bytes} (long : letters.map Byte.toLower = openTagText) :
      tagOpener <+: letters := by
    obtain ⟨first, others, rfl, less, long⟩ := List.map_eq_cons_iff.mp long
    obtain ⟨second, others, rfl, question, -⟩ := List.map_eq_cons_iff.mp long
    rw [Byte.eq_of_toLower_eq (by decide) less, Byte.eq_of_toLower_eq (by decide) question]
    exact ⟨others, rfl⟩
  cases written with
  | echo => exact ⟨_, rfl⟩
  | atEnd long => exact front long
  | broken long => exact (front long).trans (List.prefix_append _ _)
  | spaced long => exact (front long).trans (List.prefix_append _ _)

/-- The long tag has five letters. -/
theorem length_of_openTagText {letters : Bytes} (long : letters.map Byte.toLower = openTagText) :
    letters.length = 5 := by
  rw [← List.length_map Byte.toLower, long]
  rfl

theorem openTag?_fits {bytes : Bytes} {tag : Lexeme} (found : openTag? bytes = some tag) :
    tag.Fits bytes := by
  constructor
  · cases openTag?_isOpenTag found <;> simp
  · cases openTag?_isOpenTag found with
    | echo => simp [echoTagText, Bytes.ascii]
    | atEnd long => simp [length_of_openTagText long]
    | broken long =>
        simp only [List.length_append, length_of_openTagText long, List.length_cons]
        omega
    | spaced long =>
        simp only [List.length_append, length_of_openTagText long, List.length_cons]
        omega

theorem closeTagLength_le {bytes : Bytes} (two : 2 ≤ bytes.length) :
    closeTagLength bytes ≤ bytes.length := by
  have lineBreak := Bytes.lineBreakLength_le (bytes.drop 2)
  rw [List.length_drop] at lineBreak
  rw [closeTagLength]
  omega

theorem lineCommentLength_le (bytes : Bytes) : lineCommentLength bytes ≤ bytes.length := by
  induction bytes with
  | nil => simp [lineCommentLength]
  | cons byte rest ih =>
      rw [lineCommentLength]
      split
      · exact Nat.zero_le _
      · split
        · exact Nat.zero_le _
        · simpa using ih

theorem lineCommentLength_pos {byte : UInt8} {rest : Bytes} (notFeed : byte ≠ Byte.lineFeed)
    (notQuestion : byte ≠ Byte.question) : 0 < lineCommentLength (byte :: rest) := by
  simp [lineCommentLength, notFeed, notQuestion]

theorem blockCommentLength?_le {bytes : Bytes} {size : Nat}
    (found : blockCommentLength? bytes = some size) : 4 ≤ size ∧ size ≤ bytes.length := by
  obtain ⟨offset, inRest, rfl⟩ := Option.map_eq_some_iff.mp found
  have fits := Bytes.offsetOf?_add_length_le inRest
  simp only [blockCloser, List.length_cons, List.length_nil, List.length_drop] at fits
  omega

theorem radixLength?_le {bytes : Bytes} {size : Nat} (found : radixLength? bytes = some size) :
    0 < size ∧ size ≤ bytes.length := by
  unfold radixLength? at found
  split at found
  · next first letter digits =>
      split at found
      · split at found
        · contradiction
        · next isDigit _ =>
            split at found
            · cases found
              have run : digitRun isDigit digits ≤ digits.length := Bytes.runLength_le _ _
              simp only [List.length_cons]
              omega
            · contradiction
      · contradiction
  · contradiction

theorem fractionLength_le (bytes : Bytes) : fractionLength bytes ≤ bytes.length := by
  cases bytes with
  | nil => simp [fractionLength]
  | cons byte rest =>
      have run : digitRun Byte.isDigit rest ≤ rest.length := Bytes.runLength_le _ _
      simp only [fractionLength, List.length_cons]
      split <;> omega

theorem exponentLength?_le {bytes : Bytes} {size : Nat}
    (found : exponentLength? bytes = some size) : size ≤ bytes.length := by
  cases bytes with
  | nil => contradiction
  | cons letter rest =>
      simp only [exponentLength?, Option.ite_none_right_eq_some, Option.some.injEq,
        Bool.and_eq_true] at found
      obtain ⟨⟨-, digits⟩, rfl⟩ := found
      have left := Bytes.startsWhere_length_pos digits
      have run : digitRun Byte.isDigit (rest.drop (signLength rest)) ≤
          (rest.drop (signLength rest)).length := Bytes.runLength_le _ _
      rw [List.length_drop] at left run
      simp only [List.length_cons]
      omega

/-- What may open a number: a digit, or a dot and a digit. -/
def StartsNumber (bytes : Bytes) : Prop :=
  Bytes.startsWhere Byte.isDigit bytes ∨
    ∃ rest, bytes = Byte.dot :: rest ∧ Bytes.startsWhere Byte.isDigit rest

theorem decimalNumber_fits {bytes : Bytes} (starts : StartsNumber bytes) :
    (decimalNumber bytes).Fits bytes := by
  have whole : digitRun Byte.isDigit bytes ≤ bytes.length := Bytes.runLength_le _ _
  have fraction := fractionLength_le (bytes.drop (digitRun Byte.isDigit bytes))
  have positive : 0 < digitRun Byte.isDigit bytes +
      fractionLength (bytes.drop (digitRun Byte.isDigit bytes)) := by
    rcases starts with digit | ⟨rest, rfl, -⟩
    · obtain ⟨byte, rest, rfl, member⟩ := Bytes.exists_cons_of_startsWhere digit
      simp only [digitRun, Bytes.runLength, member, Bool.true_or, if_true]
      omega
    · have noDigit : digitRun Byte.isDigit (Byte.dot :: rest) = 0 := rfl
      simp [noDigit, fractionLength, Nat.add_comm 1]
  rw [List.length_drop] at fraction
  unfold decimalNumber
  simp only
  split
  · next exponent found =>
      have fits := exponentLength?_le found
      rw [List.length_drop] at fits
      exact ⟨by simp only; omega, by simp only; omega⟩
  · exact ⟨positive, by simp only; omega⟩

theorem number_fits {bytes : Bytes} (starts : StartsNumber bytes) :
    (number bytes).Fits bytes := by
  rw [number]
  split
  · next size found => exact ⟨(radixLength?_le found).1, (radixLength?_le found).2⟩
  · exact decimalNumber_fits starts

/-- A single-quoted string that ends does so at a quote. -/
theorem exists_closing_singleQuote {bytes : Bytes} {size : Nat}
    (found : singleQuoteLength? bytes = some size) :
    ∃ body rest, bytes = body ++ Byte.singleQuote :: rest ∧ size = body.length + 1 := by
  fun_induction singleQuoteLength? bytes generalizing size with
  | case1 => contradiction
  | case2 rest =>
      cases found
      exact ⟨[], rest, rfl, rfl⟩
  | case3 => contradiction
  | case4 escaped after _ ih =>
      obtain ⟨later, inRest, rfl⟩ := Option.map_eq_some_iff.mp found
      obtain ⟨body, rest, rfl, rfl⟩ := ih inRest
      exact ⟨Byte.backslash :: escaped :: body, rest, rfl, rfl⟩
  | case5 byte after _ _ ih =>
      obtain ⟨later, inRest, rfl⟩ := Option.map_eq_some_iff.mp found
      obtain ⟨body, rest, rfl, rfl⟩ := ih inRest
      exact ⟨byte :: body, rest, rfl, rfl⟩

theorem operator_fits {bytes : Bytes} (nonempty : bytes ≠ []) : (operator bytes).Fits bytes := by
  rw [operator]
  split
  · next text found =>
      have positive : ∀ text ∈ operators, 0 < text.length := by decide
      have starts := List.find?_some (p := fun text : Bytes => text.isPrefixOf bytes) found
      exact ⟨positive text (List.mem_of_find?_eq_some found), Bytes.isPrefixOf_length_le starts⟩
  · exact ⟨Nat.one_pos, List.length_pos_iff.mpr nonempty⟩

theorem terminator?_fits {enclosure : Enclosure} {bytes : Bytes} {closer : Lexeme}
    (found : terminator? enclosure bytes = some closer) : closer.Fits bytes := by
  cases enclosure with
  | doubleQuote =>
      simp only [terminator?, Option.ite_none_right_eq_some, Option.some.injEq] at found
      obtain ⟨starts, rfl⟩ := found
      exact ⟨Nat.one_pos, Bytes.startsWhere_length_pos starts⟩
  | backtick =>
      simp only [terminator?, Option.ite_none_right_eq_some, Option.some.injEq] at found
      obtain ⟨starts, rfl⟩ := found
      exact ⟨Nat.one_pos, Bytes.startsWhere_length_pos starts⟩
  | heredoc label =>
      obtain ⟨size, closing, rfl⟩ := Option.map_eq_some_iff.mp found
      exact ⟨(Heredoc.closerLength?_le closing).1, (Heredoc.closerLength?_le closing).2⟩

end Lexeme

end PageScript
