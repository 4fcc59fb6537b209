import PageScript.Proofs.CutShape
import PageScript.Proofs.Utf8Text

/-!
# The seams of lexemes

Lexemes are cut by bytes, but where they are cut an ASCII byte stands on one side, or the
page ends there.  Names end before a byte that is no part of a name, and every byte outside
of ASCII is part of one.  Everything else ends with an ASCII byte or before one.
-/

namespace PageScript

namespace Byte

theorem lt_of_isDigit {byte : UInt8} (digit : isDigit byte) : byte < 0x80 := by
  simp only [isDigit, Bool.and_eq_true, decide_eq_true_eq] at digit
  exact UInt8.lt_of_le_of_lt digit.2 (by decide)

theorem lt_of_isBinaryDigit {byte : UInt8} (digit : isBinaryDigit byte) : byte < 0x80 := by
  simp only [isBinaryDigit, Bool.and_eq_true, decide_eq_true_eq] at digit
  exact UInt8.lt_of_le_of_lt digit.2 (by decide)

theorem lt_of_isOctalDigit {byte : UInt8} (digit : isOctalDigit byte) : byte < 0x80 := by
  simp only [isOctalDigit, Bool.and_eq_true, decide_eq_true_eq] at digit
  exact UInt8.lt_of_le_of_lt digit.2 (by decide)

theorem lt_of_isHexDigit {byte : UInt8} (digit : isHexDigit byte) : byte < 0x80 := by
  simp only [isHexDigit, Bool.or_eq_true, Bool.and_eq_true, decide_eq_true_eq] at digit
  rcases digit with (decimal | upper) | lower
  · exact lt_of_isDigit decimal
  · exact UInt8.lt_of_le_of_lt upper.2 (by decide)
  · exact UInt8.lt_of_le_of_lt lower.2 (by decide)

theorem lt_of_isSpace {byte : UInt8} (blank : isSpace byte) : byte < 0x80 := by
  simp only [isSpace, isBlank, Bool.or_eq_true, beq_iff_eq] at blank
  rcases blank with ((rfl | rfl) | rfl) | rfl <;> decide

/-- Only ASCII letters change their case. -/
theorem lt_of_toLower {byte : UInt8} (small : toLower byte < 0x80) : byte < 0x80 := by
  rw [toLower] at small
  split at small
  · next upper =>
      simp only [isUpper, Bool.and_eq_true, decide_eq_true_eq] at upper
      exact UInt8.lt_of_le_of_lt upper.2 (by decide)
  · exact small

/-- Every byte outside of ASCII may open a name. -/
theorem lt_of_not_isNameStart {byte : UInt8} (noName : ¬ isNameStart byte) : byte < 0x80 := by
  refine UInt8.not_le.mp fun large => noName ?_
  simp [isNameStart, large]

end Byte

namespace Bytes

/-- The first `count` bytes are ASCII bytes. -/
def AsciiUpTo (count : Nat) (bytes : Bytes) : Prop :=
  ∀ byte ∈ bytes.take count, byte < 0x80

variable {count more : Nat} {bytes : Bytes}

theorem AsciiUpTo.zero (bytes : Bytes) : AsciiUpTo 0 bytes := by
  simp [AsciiUpTo]

theorem AsciiUpTo.add (front : AsciiUpTo count bytes)
    (back : AsciiUpTo more (bytes.drop count)) : AsciiUpTo (count + more) bytes := by
  intro byte member
  rw [List.take_add, List.mem_append] at member
  exact member.elim (front byte) (back byte)

theorem AsciiUpTo.one {byte : UInt8} (small : byte < 0x80) (rest : Bytes) :
    AsciiUpTo 1 (byte :: rest) := by
  simpa [AsciiUpTo] using small

theorem AsciiUpTo.isSeam (ascii : AsciiUpTo count bytes) :
    Utf8.IsSeam (bytes.take count) (bytes.drop count) :=
  .of_ascii ascii _

theorem asciiUpTo_append {front : Bytes} (ascii : ∀ byte ∈ front, byte < 0x80) (back : Bytes) :
    AsciiUpTo front.length (front ++ back) := by
  rwa [AsciiUpTo, List.take_left]

theorem asciiUpTo_runLength {accept : UInt8 → Bool}
    (ascii : ∀ byte, accept byte → byte < 0x80) (bytes : Bytes) :
    AsciiUpTo (runLength accept bytes) bytes := by
  obtain ⟨run, rest, rfl, members, -, length⟩ := exists_run accept bytes
  rw [length]
  exact asciiUpTo_append (fun byte member => ascii byte (members byte member)) rest

theorem ascii_of_all (all : bytes.all fun byte => byte < 0x80) : ∀ byte ∈ bytes, byte < 0x80 := by
  simpa using all

theorem IsLineBreak.ascii {lineBreak : Bytes} (ends : IsLineBreak lineBreak) :
    ∀ byte ∈ lineBreak, byte < 0x80 := by
  rcases ends with rfl | rfl
  · exact ascii_of_all rfl
  · exact ascii_of_all rfl

theorem asciiUpTo_lineBreakLength (bytes : Bytes) :
    AsciiUpTo (lineBreakLength bytes) bytes := by
  by_cases none : lineBreakLength bytes = 0
  · rw [none]
    exact .zero bytes
  · obtain ⟨lineBreak, rest, rfl, ends, length⟩ := exists_lineBreak none
    rw [length]
    exact asciiUpTo_append ends.ascii rest

end Bytes

namespace Lexeme

open Bytes (AsciiUpTo)
open Utf8 (IsSeam IsText)

variable {bytes rest : Bytes}

section Tags

theorem ascii_of_openTagText {letters : Bytes} (long : letters.map Byte.toLower = openTagText) :
    ∀ byte ∈ letters, byte < 0x80 := by
  intro byte member
  have small : ∀ letter ∈ openTagText, letter < 0x80 := Bytes.ascii_of_all rfl
  exact Byte.lt_of_toLower (small _ (long ▸ List.mem_map_of_mem member))

theorem IsOpenTag.isSeam {tag : Lexeme} (written : IsOpenTag bytes tag) :
    IsSeam (bytes.take tag.size) (bytes.drop tag.size) := by
  apply AsciiUpTo.isSeam
  cases written with
  | @echo rest =>
      have ascii : ∀ byte ∈ echoTagText, byte < 0x80 := Bytes.ascii_of_all rfl
      exact Bytes.asciiUpTo_append ascii rest
  | atEnd long =>
      have letters := Bytes.asciiUpTo_append (ascii_of_openTagText long) []
      rwa [List.append_nil, length_of_openTagText long] at letters
  | @broken letters rest long =>
      have ascii : ∀ byte ∈ letters ++ [Byte.carriageReturn, Byte.lineFeed], byte < 0x80 :=
        List.forall_mem_append.mpr ⟨ascii_of_openTagText long, Bytes.ascii_of_all rfl⟩
      simpa [length_of_openTagText long] using Bytes.asciiUpTo_append ascii rest
  | @spaced letters rest space long isSpace =>
      have ascii : ∀ byte ∈ letters ++ [space], byte < 0x80 :=
        List.forall_mem_append.mpr
          ⟨ascii_of_openTagText long, by simpa using Byte.lt_of_isSpace isSpace⟩
      simpa [length_of_openTagText long] using Bytes.asciiUpTo_append ascii rest

/-- Text ends before the less-than sign of a tag. -/
theorem isSeam_of_openTag? {tag : Lexeme} (found : openTag? rest = some tag) (text : Bytes) :
    IsSeam text rest := by
  obtain ⟨after, rfl⟩ := (openTag?_isOpenTag found).opener_isPrefix
  exact .of_next (by decide : Byte.less < 0x80) text _

theorem closeTag_isSeam (rest : Bytes) :
    let bytes := Byte.question :: Byte.greater :: rest
    IsSeam (bytes.take (closeTagLength bytes)) (bytes.drop (closeTagLength bytes)) := by
  have mark : ∀ byte ∈ [Byte.question, Byte.greater], byte < 0x80 := Bytes.ascii_of_all rfl
  exact ((Bytes.asciiUpTo_append mark rest).add (Bytes.asciiUpTo_lineBreakLength rest)).isSeam

end Tags

section Comments

theorem lineComment_isSeam (bytes : Bytes) :
    IsSeam (bytes.take (lineCommentLength bytes)) (bytes.drop (lineCommentLength bytes)) := by
  suffices stops : ∀ byte ∈ (bytes.drop (lineCommentLength bytes)).head?, byte < 0x80 from
    .inr stops
  induction bytes with
  | nil => simp
  | cons byte rest ih =>
      rw [lineCommentLength]
      split
      · next feed =>
          subst feed
          rintro _ ⟨⟩
          decide
      · split
        · next closes =>
            have question := of_decide_eq_true (Bool.and_eq_true_iff.mp closes).1
            subst question
            rintro _ ⟨⟩
            decide
        · simpa using ih

theorem blockComment_isSeam {first second : UInt8} {size : Nat}
    (found : blockCommentLength? (first :: second :: rest) = some size) :
    IsSeam ((first :: second :: rest).take size) ((first :: second :: rest).drop size) := by
  obtain ⟨offset, inRest, rfl⟩ := Option.map_eq_some_iff.mp found
  obtain ⟨front, back, split, rfl⟩ := Bytes.exists_split_of_offsetOf? inRest
  have whole : first :: second :: rest =
      (first :: second :: front ++ [Byte.star] ++ [Byte.slash]) ++ back := by
    have split : rest = front ++ (blockCloser ++ back) := split
    rw [split]
    simp [blockCloser]
  have width : front.length + 4 =
      (first :: second :: front ++ [Byte.star] ++ [Byte.slash]).length := by
    simp
  rw [whole, width, List.take_left, List.drop_left]
  exact .of_last (by decide) _ back

end Comments

section Names

theorem name_isSeam (starts : bytes.startsWhere Byte.isNameStart) :
    IsSeam (bytes.take (Bytes.nameLength bytes)) (bytes.drop (Bytes.nameLength bytes)) := by
  obtain ⟨name, rest, rfl, -, stops, length⟩ :=
    Bytes.exists_name (Nat.ne_of_gt (Bytes.nameLength_pos starts))
  rw [length, List.drop_left]
  exact .of_not_isNamePart stops _

theorem variable_isSeam (starts : startsVariable bytes) :
    IsSeam (bytes.take (variableLength bytes)) (bytes.drop (variableLength bytes)) := by
  obtain ⟨sigiled, rest, rfl, -, stops, length⟩ := exists_variable starts
  rw [length, List.drop_left]
  exact .of_not_isNamePart stops _

end Names

section Numbers

theorem asciiUpTo_digitRun {isDigit : UInt8 → Bool} (ascii : ∀ byte, isDigit byte → byte < 0x80)
    (bytes : Bytes) : AsciiUpTo (digitRun isDigit bytes) bytes := by
  refine Bytes.asciiUpTo_runLength (fun byte accepted => ?_) bytes
  rcases Bool.or_eq_true_iff.mp accepted with digit | underscore
  · exact ascii byte digit
  · rw [beq_iff_eq.mp underscore]
    decide

/-- A radix marker and its digits are ASCII. -/
theorem ascii_of_radixDigit? {letter : UInt8} {isDigit : UInt8 → Bool}
    (found : radixDigit? letter = some isDigit) :
    letter < 0x80 ∧ ∀ byte, isDigit byte → byte < 0x80 := by
  have marker {char : Char} (lowered : Byte.toLower letter = Byte.ofChar char)
      (small : Byte.ofChar char < 0x80) : letter < 0x80 :=
    Byte.lt_of_toLower (lowered ▸ small)
  unfold radixDigit? at found
  simp only at found
  split at found
  · next lowered =>
      cases found
      exact ⟨marker lowered (by decide), fun _ => Byte.lt_of_isHexDigit⟩
  · split at found
    · next lowered =>
        cases found
        exact ⟨marker lowered (by decide), fun _ => Byte.lt_of_isBinaryDigit⟩
    · split at found
      · next lowered =>
          cases found
          exact ⟨marker lowered (by decide), fun _ => Byte.lt_of_isOctalDigit⟩
      · contradiction

theorem asciiUpTo_radixLength? {size : Nat} (found : radixLength? bytes = some size) :
    AsciiUpTo size bytes := by
  unfold radixLength? at found
  split at found
  · next first letter digits =>
      split at found
      · next zero =>
          subst zero
          split at found
          · contradiction
          · next isDigit radix =>
              obtain ⟨marker, ascii⟩ := ascii_of_radixDigit? radix
              cases (Option.ite_none_right_eq_some.mp found).2
              have front : ∀ byte ∈ [Byte.zero, letter], byte < 0x80 := by
                simpa using ⟨by decide, marker⟩
              exact (Bytes.asciiUpTo_append front digits).add (asciiUpTo_digitRun ascii digits)
      · contradiction
  · contradiction

theorem asciiUpTo_fractionLength (bytes : Bytes) : AsciiUpTo (fractionLength bytes) bytes := by
  cases bytes with
  | nil => exact .zero []
  | cons byte rest =>
      rw [fractionLength]
      split
      · next dot =>
          subst dot
          exact (AsciiUpTo.one (by decide) rest).add
            (asciiUpTo_digitRun (fun _ => Byte.lt_of_isDigit) rest)
      · exact .zero _

theorem asciiUpTo_signLength (bytes : Bytes) : AsciiUpTo (signLength bytes) bytes := by
  rw [signLength]
  split
  · next signed =>
      obtain ⟨sign, rest, rfl, isSign⟩ := Bytes.exists_cons_of_startsWhere signed
      refine .one ?_ rest
      simp only [Bool.or_eq_true, beq_iff_eq] at isSign
      rcases isSign with rfl | rfl <;> decide
  · exact .zero bytes

theorem asciiUpTo_exponentLength? {size : Nat} (found : exponentLength? bytes = some size) :
    AsciiUpTo size bytes := by
  cases bytes with
  | nil => contradiction
  | cons letter rest =>
      simp only [exponentLength?, Option.ite_none_right_eq_some, Option.some.injEq,
        Bool.and_eq_true, decide_eq_true_eq] at found
      obtain ⟨⟨lowered, -⟩, rfl⟩ := found
      have small : letter < 0x80 := by
        refine Byte.lt_of_toLower ?_
        rw [lowered]
        decide
      rw [Nat.add_assoc]
      exact (AsciiUpTo.one small rest).add ((asciiUpTo_signLength rest).add
        (asciiUpTo_digitRun (fun _ => Byte.lt_of_isDigit) _))

theorem number_isSeam (bytes : Bytes) :
    IsSeam (bytes.take (number bytes).size) (bytes.drop (number bytes).size) := by
  apply AsciiUpTo.isSeam
  rw [number]
  split
  · next size found => exact asciiUpTo_radixLength? found
  · have whole := asciiUpTo_digitRun (fun _ => Byte.lt_of_isDigit) bytes
    have both := whole.add (asciiUpTo_fractionLength _)
    unfold decimalNumber
    simp only
    split
    · next found => exact both.add (asciiUpTo_exponentLength? found)
    · exact both

end Numbers

section Strings

theorem singleQuoted_isSeam {size : Nat} (found : singleQuoteLength? rest = some size) :
    let bytes := Byte.singleQuote :: rest
    IsSeam (bytes.take (size + 1)) (bytes.drop (size + 1)) := by
  obtain ⟨body, after, rfl, rfl⟩ := exists_closing_singleQuote found
  have whole : Byte.singleQuote :: (body ++ Byte.singleQuote :: after) =
      (Byte.singleQuote :: body ++ [Byte.singleQuote]) ++ after := by
    simp
  have width : body.length + 1 + 1 =
      (Byte.singleQuote :: body ++ [Byte.singleQuote]).length := by
    simp
  simp only
  rw [whole, width, List.take_left, List.drop_left]
  exact .of_last (by decide) _ after

theorem operator_isSeam {first : UInt8} (small : first < 0x80) (rest : Bytes) :
    let bytes := first :: rest
    IsSeam (bytes.take (operator bytes).size) (bytes.drop (operator bytes).size) := by
  apply AsciiUpTo.isSeam
  rw [operator]
  split
  · next text found =>
      have ascii : operators.all (·.all fun byte => byte < 0x80) := rfl
      have small := List.all_eq_true.mp ascii text (List.mem_of_find?_eq_some found)
      obtain ⟨back, split⟩ := List.isPrefixOf_iff_prefix.mp
        (List.find?_some (p := fun text : Bytes => text.isPrefixOf (first :: rest)) found)
      rw [← split]
      exact Bytes.asciiUpTo_append (Bytes.ascii_of_all small) back
  · exact .one small rest

end Strings

end Lexeme

namespace Heredoc

open Utf8 (IsSeam)

variable {bytes label : Bytes}

/-- A header ends with a line feed. -/
theorem IsHeader.isSeam {text : Bytes} (written : IsHeader text label) (rest : Bytes) :
    IsSeam text rest := by
  obtain @⟨blanks, quote, label, lineBreak, -, -, -, ends⟩ := written
  obtain ⟨front, last⟩ : ∃ front, lineBreak = front ++ [Byte.lineFeed] := by
    rcases ends with rfl | rfl
    · exact ⟨[], rfl⟩
    · exact ⟨[Byte.carriageReturn], rfl⟩
  rw [last, ← List.append_assoc]
  exact .of_last (by decide) _ rest

/-- A closing line ends where its label is not continued. -/
theorem not_isNamePart_of_closingLength? {size : Nat}
    (found : closingLength? label bytes = some size) :
    ¬ Bytes.startsWhere Byte.isNamePart (bytes.drop size) := by
  rw [closingLength?] at found
  simp only [Option.ite_none_right_eq_some, Bool.and_eq_true, Bool.not_eq_true',
    Option.some.injEq, List.drop_drop] at found
  obtain ⟨⟨-, stops⟩, rfl⟩ := found
  rw [stops]
  exact Bool.false_ne_true

theorem closingLine_isSeam {size : Nat} (found : closingLength? label bytes = some size) :
    IsSeam (bytes.take size) (bytes.drop size) :=
  .of_not_isNamePart (not_isNamePart_of_closingLength? found) _

theorem closer_isSeam {size : Nat} (found : closerLength? label bytes = some size) :
    IsSeam (bytes.take size) (bytes.drop size) := by
  obtain ⟨lineBreak, after, line, rfl, -, closing, rfl⟩ := exists_of_closerLength? found
  have stops := not_isNamePart_of_closingLength? closing
  refine .of_not_isNamePart ?_ _
  rwa [← List.drop_drop, List.drop_left]

/-- A closer begins with a byte of a line break. -/
theorem isSeam_of_closerLength? {size : Nat} (found : closerLength? label bytes = some size)
    (text : Bytes) : IsSeam text bytes := by
  obtain ⟨lineBreak, after, line, rfl, ends, -, -⟩ := exists_of_closerLength? found
  rcases ends with rfl | rfl
  · exact .of_next (by decide) text _
  · exact .of_next (by decide) text _

end Heredoc

namespace Lexeme

open Utf8 (IsSeam)

variable {enclosure : Enclosure} {text rest : Bytes} {closer : Lexeme}

section Bodies

/-- Text ends before a byte that is told by its code. -/
theorem isSeam_of_startsWhere_beq {special : UInt8} (small : special < 0x80)
    (starts : rest.startsWhere (· == special)) (text : Bytes) : IsSeam text rest := by
  obtain ⟨byte, rest, rfl, same⟩ := Bytes.exists_cons_of_startsWhere starts
  rw [beq_iff_eq.mp same]
  exact .of_next small text rest

/-- A terminator begins with an ASCII byte. -/
theorem isSeam_of_terminator? (found : terminator? enclosure rest = some closer)
    (text : Bytes) : IsSeam text rest := by
  cases enclosure with
  | doubleQuote =>
      have starts := (Option.ite_none_right_eq_some.mp found).1
      exact isSeam_of_startsWhere_beq (by decide) starts text
  | backtick =>
      have starts := (Option.ite_none_right_eq_some.mp found).1
      exact isSeam_of_startsWhere_beq (by decide) starts text
  | heredoc label =>
      obtain ⟨size, closing, -⟩ := Option.map_eq_some_iff.mp found
      exact Heredoc.isSeam_of_closerLength? closing text

theorem terminator_isSeam (found : terminator? enclosure rest = some closer) :
    IsSeam (rest.take closer.size) (rest.drop closer.size) := by
  have quote {special : UInt8} (small : special < 0x80)
      (starts : rest.startsWhere (· == special)) : IsSeam (rest.take 1) (rest.drop 1) := by
    obtain ⟨byte, rest, rfl, same⟩ := Bytes.exists_cons_of_startsWhere starts
    rw [beq_iff_eq.mp same]
    exact (Bytes.AsciiUpTo.one small rest).isSeam
  cases enclosure with
  | doubleQuote =>
      obtain ⟨starts, same⟩ := Option.ite_none_right_eq_some.mp found
      cases same
      exact quote (by decide) starts
  | backtick =>
      obtain ⟨starts, same⟩ := Option.ite_none_right_eq_some.mp found
      cases same
      exact quote (by decide) starts
  | heredoc label =>
      obtain ⟨size, closing, rfl⟩ := Option.map_eq_some_iff.mp found
      exact Heredoc.closer_isSeam closing

/-- A run of text in a body ends before a sigil or a terminator, or with the page. -/
theorem text_isSeam (length : textLength enclosure (text ++ rest) = text.length) :
    IsSeam text rest := by
  by_cases ended : rest = []
  · subst ended
    exact .nil_right text
  · have left : (text ++ rest).drop (textLength enclosure (text ++ rest)) = rest := by
      rw [length, List.drop_left]
    rcases stops_textLength left ended with starts | terminated
    · obtain ⟨_, after, rfl, ⟨name, rfl, -⟩, -, -⟩ := exists_variable starts
      exact .of_next (by decide) text _
    · obtain ⟨closer, found⟩ := Option.isSome_iff_exists.mp terminated
      exact isSeam_of_terminator? found text

end Bodies

end Lexeme

end PageScript
