import PageScript.Lexeme.Heredoc
import PageScript.Proofs.Runs

/-!
# The lines around a heredoc

The line that opens a heredoc and the line that closes it are described by how they
are written, and the look ahead is shown to find exactly what is so written.
-/

namespace PageScript

namespace Bytes

/-- A name: bytes of names, the first of which may open one. -/
structure IsName (name : Bytes) : Prop where
  starts : startsWhere Byte.isNameStart name
  members : ∀ byte ∈ name, Byte.isNamePart byte

/-- A line feed, perhaps with a carriage return before it. -/
def IsLineBreak (bytes : Bytes) : Prop :=
  bytes = [Byte.lineFeed] ∨ bytes = [Byte.carriageReturn, Byte.lineFeed]

theorem IsName.ne_nil {name : Bytes} (isName : IsName name) : name ≠ [] := by
  rintro rfl
  exact absurd isName.starts (by simp)

theorem IsLineBreak.ne_nil {lineBreak : Bytes} (ends : IsLineBreak lineBreak) :
    lineBreak ≠ [] := by
  rcases ends with rfl | rfl <;> simp

/-- No name goes on at a line break. -/
theorem IsLineBreak.not_startsWhere {lineBreak : Bytes} (ends : IsLineBreak lineBreak)
    (rest : Bytes) : ¬ startsWhere Byte.isNamePart (lineBreak ++ rest) := by
  rw [startsWhere_append ends.ne_nil]
  rcases ends with rfl | rfl <;> decide

theorem nameLength_append {name rest : Bytes} (isName : IsName name)
    (stops : ¬ startsWhere Byte.isNamePart rest) :
    nameLength (name ++ rest) = name.length := by
  have starts : startsWhere Byte.isNameStart (name ++ rest) := by
    rw [startsWhere_append isName.ne_nil]
    exact isName.starts
  rw [nameLength, if_pos starts, runLength_append_of_stops isName.members stops]

/-- A name at the front splits off, up to where it goes on no longer. -/
theorem exists_name {bytes : Bytes} (found : nameLength bytes ≠ 0) :
    ∃ name rest, bytes = name ++ rest ∧ IsName name ∧
      ¬ startsWhere Byte.isNamePart rest ∧ nameLength bytes = name.length := by
  rw [nameLength] at found ⊢
  split at found
  · next starts =>
      rw [if_pos starts]
      obtain ⟨name, rest, rfl, members, stops, length⟩ := exists_run Byte.isNamePart bytes
      have nonempty : name ≠ [] := by
        rintro rfl
        exact found length
      rw [startsWhere_append nonempty] at starts
      exact ⟨name, rest, rfl, ⟨starts, members⟩, stops, length⟩
  · contradiction

theorem lineBreakLength_append {lineBreak : Bytes} (ends : IsLineBreak lineBreak)
    (rest : Bytes) : lineBreakLength (lineBreak ++ rest) = lineBreak.length := by
  rcases ends with rfl | rfl <;> rfl

theorem exists_lineBreak {bytes : Bytes} (found : lineBreakLength bytes ≠ 0) :
    ∃ lineBreak rest, bytes = lineBreak ++ rest ∧ IsLineBreak lineBreak ∧
      lineBreakLength bytes = lineBreak.length := by
  cases bytes with
  | nil => contradiction
  | cons first rest =>
      simp only [lineBreakLength] at found ⊢
      split at found
      · next feeds =>
          subst feeds
          exact ⟨[Byte.lineFeed], rest, rfl, .inl rfl, by simp⟩
      · next other =>
          split at found
          · next pair =>
              simp only [Bool.and_eq_true, decide_eq_true_eq] at pair
              obtain ⟨rfl, feeds⟩ := pair
              obtain ⟨byte, rest, rfl, same⟩ := exists_cons_of_startsWhere feeds
              simp only [beq_iff_eq] at same
              subst same
              exact ⟨[Byte.carriageReturn, Byte.lineFeed], rest, rfl, .inr rfl, by simp [other]⟩
          · contradiction

end Bytes

namespace Heredoc

open Bytes (IsName IsLineBreak)

/-- How a line that opens a heredoc with a label is written. -/
inductive IsHeader : Bytes → Bytes → Prop where
  | mk {blanks quote label lineBreak : Bytes} :
      (∀ byte ∈ blanks, Byte.isBlank byte) →
      quote = [] ∨ quote = [Byte.doubleQuote] →
      IsName label → IsLineBreak lineBreak →
      IsHeader (opener ++ blanks ++ quote ++ label ++ quote ++ lineBreak) label

theorem IsHeader.length_pos {text label : Bytes} (written : IsHeader text label) :
    0 < text.length := by
  obtain ⟨-, -, -, -⟩ := written
  have three : opener.length = 3 := rfl
  simp only [List.length_append, three]
  omega

theorem IsHeader.isName {text label : Bytes} (written : IsHeader text label) :
    IsName label := by
  obtain ⟨-, -, isName, -⟩ := written
  exact isName

/-- A byte that may open a name is no blank. -/
theorem not_isBlank_of_isNameStart {byte : UInt8} (starts : Byte.isNameStart byte) :
    ¬ Byte.isBlank byte := by
  intro blank
  simp only [Byte.isBlank, Bool.or_eq_true, beq_iff_eq] at blank
  rcases blank with rfl | rfl <;> contradiction

theorem exists_quote (bytes : Bytes) :
    ∃ quote rest, bytes = quote ++ rest ∧ (quote = [] ∨ quote = [Byte.doubleQuote]) ∧
      quoteLength bytes = quote.length := by
  rw [quoteLength]
  split
  · next starts =>
      obtain ⟨byte, rest, rfl, same⟩ := Bytes.exists_cons_of_startsWhere starts
      simp only [beq_iff_eq] at same
      exact ⟨[byte], rest, rfl, .inr (same ▸ rfl), rfl⟩
  · exact ⟨[], bytes, rfl, .inl rfl, rfl⟩

/-- A label that is opened by a quote is closed by one. -/
theorem exists_closing_quote {quote closing : Bytes}
    (quoted : quote = [] ∨ quote = [Byte.doubleQuote])
    (balanced : quote.length = 1 → ¬ quoteLength closing = 0) :
    ∃ rest, closing = quote ++ rest := by
  rcases quoted with rfl | rfl
  · exact ⟨closing, rfl⟩
  · obtain ⟨quote, rest, rfl, quoted, length⟩ := exists_quote closing
    rcases quoted with rfl | rfl
    · exact absurd length (balanced rfl)
    · exact ⟨rest, rfl⟩

/-- What is written as a header is found, whatever follows it. -/
theorem header?_append {text label : Bytes} (written : IsHeader text label) (rest : Bytes) :
    header? (text ++ rest) = some ⟨text.length, label⟩ := by
  obtain @⟨blanks, quote, label, lineBreak, blank, quoted, isName, ends⟩ := written
  obtain ⟨first, tail, rfl, start⟩ := Bytes.exists_cons_of_startsWhere isName.starts
  have opened : opener.isPrefixOf
      (opener ++ blanks ++ quote ++ (first :: tail) ++ quote ++ lineBreak ++ rest) := by
    simp [List.isPrefixOf_iff_prefix]
  have dropped :
      (opener ++ blanks ++ quote ++ (first :: tail) ++ quote ++ lineBreak ++ rest).drop 3 =
        blanks ++ (quote ++ (first :: tail ++ (quote ++ (lineBreak ++ rest)))) := by
    simp [opener, Bytes.ascii]
  have indent : Bytes.runLength Byte.isBlank
      (blanks ++ (quote ++ (first :: tail ++ (quote ++ (lineBreak ++ rest))))) =
        blanks.length := by
    apply Bytes.runLength_append_of_stops blank
    rcases quoted with rfl | rfl
    · exact not_isBlank_of_isNameStart start
    · exact (by decide : ¬ Byte.isBlank Byte.doubleQuote)
  have notQuote : first ≠ Byte.doubleQuote := by
    rintro rfl
    contradiction
  have quoteBefore : quoteLength
      (quote ++ (first :: tail ++ (quote ++ (lineBreak ++ rest)))) = quote.length := by
    rcases quoted with rfl | rfl
    · simp [quoteLength, notQuote]
    · simp [quoteLength]
  have named : Bytes.nameLength (first :: tail ++ (quote ++ (lineBreak ++ rest))) =
      (first :: tail).length := by
    apply Bytes.nameLength_append isName
    rcases quoted with rfl | rfl
    · exact ends.not_startsWhere rest
    · exact (by decide : ¬ Byte.isNamePart Byte.doubleQuote)
  have quoteAfter : ¬ (quote.length = 1 ∧ quoteLength (quote ++ (lineBreak ++ rest)) = 0) := by
    rcases quoted with rfl | rfl
    · simp
    · simp [quoteLength]
  have broken := Bytes.lineBreakLength_append ends rest
  have nonzero : lineBreak.length ≠ 0 := by simpa using ends.ne_nil
  simp only [header?, opened, if_true, dropped, indent, ← List.drop_drop, List.drop_left,
    quoteBefore, named, broken]
  have three : opener.length = 3 := rfl
  rw [if_neg (by simp), if_neg (by simpa using quoteAfter), if_neg nonzero, List.take_left]
  simp only [List.length_append, three]

/-- What is found as a header is so written. -/
theorem exists_isHeader {bytes : Bytes} {header : Header} (found : header? bytes = some header) :
    ∃ text rest, bytes = text ++ rest ∧ IsHeader text header.label ∧
      header.size = text.length := by
  rw [header?] at found
  split at found
  · next opened =>
      obtain ⟨afterOpener, rfl⟩ := List.isPrefixOf_iff_prefix.mp opened
      have dropped : (opener ++ afterOpener).drop 3 = afterOpener := rfl
      obtain ⟨blanks, afterBlanks, rfl, blank, -, indent⟩ :=
        Bytes.exists_run Byte.isBlank afterOpener
      obtain ⟨quote, named, rfl, quoted, quoteBefore⟩ := exists_quote afterBlanks
      simp only [← List.drop_drop, dropped, indent, List.drop_left, quoteBefore] at found
      split at found
      · contradiction
      · next nameFound =>
          obtain ⟨label, closing, rfl, isName, -, nameLength⟩ := Bytes.exists_name nameFound
          simp only [nameLength, List.drop_left, List.take_left] at found
          split at found
          · contradiction
          · next balanced =>
              simp only [Bool.and_eq_true, decide_eq_true_eq, not_and] at balanced
              obtain ⟨afterQuote, rfl⟩ := exists_closing_quote quoted balanced
              rw [List.drop_left] at found
              split at found
              · contradiction
              · next breakFound =>
                  obtain ⟨lineBreak, rest, rfl, ends, breakLength⟩ :=
                    Bytes.exists_lineBreak breakFound
                  cases found
                  refine ⟨_, rest, ?_, .mk blank quoted isName ends, ?_⟩
                  · simp only [List.append_assoc]
                  · have three : opener.length = 3 := rfl
                    simp only [List.length_append, three, breakLength]
  · contradiction

/-- How bytes that begin with a closing line are written: blanks, then the label, then
nothing that goes on with it.  The label ends at `size`. -/
inductive IsClosing (label : Bytes) : Bytes → Nat → Prop where
  | mk {blanks rest : Bytes} :
      (∀ byte ∈ blanks, Byte.isBlank byte) → ¬ Bytes.startsWhere Byte.isNamePart rest →
      IsClosing label (blanks ++ label ++ rest) (blanks.length + label.length)

/-- A closing line is found exactly where one is written. -/
theorem closingLength?_eq_some_iff {label bytes : Bytes} {size : Nat} (isName : IsName label) :
    closingLength? label bytes = some size ↔ IsClosing label bytes size := by
  constructor
  · intro found
    rw [closingLength?] at found
    obtain ⟨blanks, line, rfl, blank, -, indent⟩ := Bytes.exists_run Byte.isBlank bytes
    simp only [indent, List.drop_left, Option.ite_none_right_eq_some, Bool.and_eq_true,
      List.isPrefixOf_iff_prefix, Bool.not_eq_true', Option.some.injEq] at found
    obtain ⟨⟨⟨rest, rfl⟩, stops⟩, rfl⟩ := found
    rw [List.drop_left] at stops
    rw [← List.append_assoc]
    exact .mk blank (by simp [stops])
  · intro written
    obtain @⟨blanks, rest, blank, stops⟩ := written
    have indent : Bytes.runLength Byte.isBlank (blanks ++ (label ++ rest)) = blanks.length := by
      apply Bytes.runLength_append_of_stops blank
      rw [Bytes.startsWhere_append isName.ne_nil]
      obtain ⟨first, tail, rfl, start⟩ := Bytes.exists_cons_of_startsWhere isName.starts
      exact not_isBlank_of_isNameStart start
    simp [closingLength?, List.append_assoc, indent, stops]

theorem closingLength?_le {label bytes : Bytes} {size : Nat}
    (found : closingLength? label bytes = some size) :
    label.length ≤ size ∧ size ≤ bytes.length := by
  rw [closingLength?] at found
  simp only [Option.ite_none_right_eq_some, Bool.and_eq_true, Option.some.injEq] at found
  obtain ⟨⟨starts, -⟩, rfl⟩ := found
  have run := Bytes.runLength_le Byte.isBlank bytes
  have fits := Bytes.isPrefixOf_length_le starts
  rw [List.length_drop] at fits
  omega

/-- A closer is a line break and a closing line. -/
theorem exists_of_closerLength? {label bytes : Bytes} {length : Nat}
    (found : closerLength? label bytes = some length) :
    ∃ lineBreak after size, bytes = lineBreak ++ after ∧ Bytes.IsLineBreak lineBreak ∧
      closingLength? label after = some size ∧ length = lineBreak.length + size := by
  rw [closerLength?] at found
  simp only [Option.ite_none_left_eq_some] at found
  obtain ⟨nonzero, found⟩ := found
  obtain ⟨lineBreak, after, rfl, ends, breakLength⟩ := Bytes.exists_lineBreak nonzero
  rw [breakLength, List.drop_left] at found
  obtain ⟨size, closing, rfl⟩ := Option.map_eq_some_iff.mp found
  exact ⟨lineBreak, after, size, rfl, ends, closing, rfl⟩

theorem closerLength?_le {label bytes : Bytes} {size : Nat}
    (found : closerLength? label bytes = some size) : 0 < size ∧ size ≤ bytes.length := by
  obtain ⟨lineBreak, after, line, rfl, ends, closing, rfl⟩ := exists_of_closerLength? found
  have positive := List.length_pos_iff.mpr ends.ne_nil
  have fits := (closingLength?_le closing).2
  rw [List.length_append]
  omega

end Heredoc

end PageScript
