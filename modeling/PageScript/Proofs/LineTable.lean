import PageScript.Proofs.Tiling
import PageScript.Source.File

/-!
# Positions and the line table

A scan counts lines while its mark moves, and a source file looks for all its line feeds
beforehand.  Both give a byte the same place.  A position is therefore said here without
either of them: by the line feeds before a byte and by where its line begins.

Everything rests on the bytes before a token, nearest first, which is how `Span.after` has
them: the line is one more than their line feeds, the column one more than their first run
without one.
-/

namespace PageScript

namespace Bytes

/-- The line of an offset begins just behind the last line feed before it, or at the
front of the page. -/
structure BeginsLine (bytes : Bytes) (offset lineStart : Nat) : Prop where
  le : lineStart ≤ offset
  opens : lineStart = 0 ∨ bytes[lineStart - 1]? = some Byte.lineFeed
  unbroken : Byte.lineFeed ∉ (bytes.take offset).drop lineStart

/-- Number of bytes read since the last line feed, where the bytes stand nearest first. -/
abbrev sinceBreak (behind : Bytes) : Nat :=
  runLength (· != Byte.lineFeed) behind

/-- Bytes without a line feed stay on the line. -/
theorem sinceBreak_append {data : Bytes} (plain : Byte.lineFeed ∉ data) (behind : Bytes) :
    sinceBreak (data.reverse ++ behind) = data.length + sinceBreak behind := by
  have members : ∀ byte ∈ data.reverse, byte != Byte.lineFeed := by
    intro byte member
    rw [List.mem_reverse] at member
    exact bne_iff_ne.mpr (ne_of_mem_of_not_mem member plain)
  have whole : runLength (· != Byte.lineFeed) data.reverse = data.reverse.length := by
    have run : runLength (· != Byte.lineFeed) (data.reverse ++ []) = data.reverse.length :=
      runLength_append_of_stops members (by simp)
    rwa [List.append_nil] at run
  rw [sinceBreak, runLength_append, if_pos whole, List.length_reverse]

theorem sinceBreak_reverse_le (front : Bytes) : sinceBreak front.reverse ≤ front.length := by
  simpa using runLength_le (· != Byte.lineFeed) front.reverse

/-- The line of the byte behind `front` begins where the last line feed of `front` says. -/
theorem beginsLine (front back : Bytes) :
    (front ++ back).BeginsLine front.length (front.length - sinceBreak front.reverse) := by
  obtain ⟨run, rest, split, members, stops, length⟩ :=
    exists_run (· != Byte.lineFeed) front.reverse
  have front_eq : front = rest.reverse ++ run.reverse := by
    rw [← List.reverse_append, ← split, List.reverse_reverse]
  have start : front.length - sinceBreak front.reverse = rest.reverse.length := by
    rw [sinceBreak, length, front_eq]
    simp
  constructor
  · exact Nat.sub_le _ _
  · cases rest with
    | nil => exact .inl start
    | cons byte rest =>
        have isFeed : byte = Byte.lineFeed := by simpa using stops
        right
        rw [start, front_eq, isFeed]
        simp
  · rw [List.take_left, start, front_eq, List.drop_left, List.mem_reverse]
    exact fun member => absurd (members _ member) (by simp)

end Bytes

namespace SourceFile

theorem lineStartsAfter_append (offset : Nat) (front back : Bytes) :
    lineStartsAfter offset (front ++ back) =
      lineStartsAfter offset front ++ lineStartsAfter (offset + front.length) back := by
  induction front generalizing offset with
  | nil => simp [lineStartsAfter]
  | cons byte front ih =>
      have further : offset + 1 + front.length = offset + (byte :: front).length := by
        simp only [List.length_cons]
        omega
      simp only [List.cons_append, lineStartsAfter, ih, further]
      split <;> rfl

/-- Every line feed opens a line. -/
theorem length_lineStartsAfter (offset : Nat) (bytes : Bytes) :
    (lineStartsAfter offset bytes).length = bytes.count Byte.lineFeed := by
  induction bytes generalizing offset with
  | nil => rfl
  | cons byte rest ih =>
      rw [lineStartsAfter, List.count_cons]
      split
      · next feed => simp [ih, feed]
      · next other => simp [ih, other]

/-- The table has the beginning of the line on which the bytes end. -/
theorem lineStarts_getElem? (page : SourceFile) {front back : Bytes}
    (split : page.content = front ++ back) :
    page.lineStarts[front.count Byte.lineFeed]? =
      some (front.length - Bytes.sinceBreak front.reverse) := by
  rw [lineStarts, split]
  clear split
  induction front using List.reverseRecOn generalizing back with
  | nil => rfl
  | append_singleton front byte ih =>
      by_cases feed : byte = Byte.lineFeed
      · subst feed
        have before := length_lineStartsAfter 0 front
        rw [List.append_assoc, lineStartsAfter_append]
        simp [← before, lineStartsAfter, Bytes.runLength]
      · have same : (front ++ [byte]).count Byte.lineFeed = front.count Byte.lineFeed := by
          simp [feed]
        have plain : Byte.lineFeed ∉ [byte] := by simpa using Ne.symm feed
        rw [List.append_assoc, same, ih, List.reverse_append, Bytes.sinceBreak_append plain,
          List.length_append, List.length_singleton, Nat.add_comm 1, Nat.add_sub_add_right]

/-- A line that the table has is a line of the file. -/
theorem lineAt?_isSome {page : SourceFile} {index start : Nat}
    (found : page.lineStarts[index]? = some start) : (page.lineAt? (index + 1)).isSome := by
  simp [lineAt?, found]

end SourceFile

/-- A span has the line and the column of its first byte, in the page and in the line
table of every file with that page. -/
structure Span.Located (bytes : Bytes) (span : Span) : Prop where
  line : span.line.toNat = 1 + (bytes.take span.start).count Byte.lineFeed
  column : ∃ lineStart, bytes.BeginsLine span.start lineStart ∧
    span.column.toNat = span.start - lineStart + 1
  table : ∀ page : SourceFile, page.content = bytes →
    (∃ lineStart, page.lineStarts[span.line.toNat - 1]? = some lineStart ∧
      lineStart + span.column.toNat - 1 = span.start) ∧
    (page.lineAt? span.line.toNat).isSome

/-- A span stands on an earlier line, or further left on the same line. -/
def Span.Precedes (left right : Span) : Prop :=
  left.line < right.line ∨ left.line = right.line ∧ left.column < right.column

namespace Span

variable {behind : Bytes} (file : FileId) (size : Nat)

/-- On a page whose lines a word can count, no line number wraps. -/
theorem after_line_toNat (short : behind.length + 1 < UInt32.size) :
    (after file behind size).line.toNat = 1 + behind.count Byte.lineFeed := by
  have few : behind.count Byte.lineFeed ≤ behind.length := List.count_le_length
  have fits : 1 + behind.count Byte.lineFeed < UInt32.size := by omega
  have counted : (UInt32.ofNat (behind.count Byte.lineFeed)).toNat =
      behind.count Byte.lineFeed :=
    UInt32.toNat_ofNat_of_lt' (Nat.lt_of_le_of_lt (Nat.le_add_left _ _) fits)
  rw [after, UInt32.toNat_add, counted]
  exact Nat.mod_eq_of_lt fits

theorem after_column_toNat (short : behind.length + 1 < UInt32.size) :
    (after file behind size).column.toNat = Bytes.sinceBreak behind + 1 := by
  have few := Bytes.runLength_le (· != Byte.lineFeed) behind
  exact UInt32.toNat_ofNat_of_lt' (Nat.lt_of_le_of_lt (Nat.add_le_add_right few 1) short)

theorem after_located (front back : Bytes) (short : front.length + 1 < UInt32.size) :
    (after file front.reverse size).Located (front ++ back) := by
  have long : front.reverse.length + 1 < UInt32.size := by rwa [List.length_reverse]
  have line := after_line_toNat file size long
  have column := after_column_toNat file size long
  have start : (after file front.reverse size).start = front.length := List.length_reverse
  have width := Bytes.sinceBreak_reverse_le front
  rw [List.count_reverse] at line
  constructor
  · rw [start, List.take_left, line]
  · refine ⟨_, start ▸ Bytes.beginsLine front back, ?_⟩
    rw [column, start]
    omega
  · intro page content
    have found := page.lineStarts_getElem? content
    rw [line, Nat.add_sub_cancel_left]
    refine ⟨⟨_, found, ?_⟩, ?_⟩
    · rw [column, start]
      omega
    · rw [Nat.add_comm]
      exact SourceFile.lineAt?_isSome found

/-- Behind further bytes a span stands later. -/
theorem after_precedes {data : Bytes} (nonempty : data ≠ []) (later : Nat)
    (short : (data.reverse ++ behind).length + 1 < UInt32.size) :
    (after file behind size).Precedes (after file (data.reverse ++ behind) later) := by
  have positive := List.length_pos_iff.mpr nonempty
  have small : behind.length + 1 < UInt32.size := by
    rw [List.length_append] at short
    omega
  have firstLine := after_line_toNat file size small
  have lastLine := after_line_toNat file later short
  rw [List.count_append, List.count_reverse] at lastLine
  by_cases feeds : Byte.lineFeed ∈ data
  · left
    have counted := List.count_pos_iff.mpr feeds
    rw [UInt32.lt_iff_toNat_lt, firstLine, lastLine]
    omega
  · right
    have none : data.count Byte.lineFeed = 0 := List.count_eq_zero.mpr feeds
    have firstColumn := after_column_toNat file size small
    have lastColumn := after_column_toNat file later short
    rw [Bytes.sinceBreak_append feeds] at lastColumn
    refine ⟨UInt32.toNat_inj.mp ?_, ?_⟩
    · rw [firstLine, lastLine, none, Nat.zero_add]
    · rw [UInt32.lt_iff_toNat_lt, firstColumn, lastColumn]
      omega

end Span

namespace Tiles

variable {file : FileId} {behind covered : Bytes} {tokens : List Token}

/-- A token stands behind the bytes before it. -/
theorem exists_of_mem (tiles : Tiles file behind covered tokens) {token : Token}
    (member : token ∈ tokens) :
    ∃ before data after kind, covered = before ++ (data ++ after) ∧
      token = .after file (before.reverse ++ behind) kind data := by
  induction tiles with
  | nil => contradiction
  | @cons behind data covered kind tokens _ _ ih =>
      rcases List.mem_cons.mp member with rfl | later
      · exact ⟨[], data, covered, kind, rfl, rfl⟩
      · obtain ⟨before, inner, after, other, rfl, rfl⟩ := ih later
        refine ⟨data ++ before, inner, after, other, ?_, ?_⟩ <;> simp

/-- Each token has its place in the page. -/
theorem located {bytes : Bytes} (tiles : Tiles file [] bytes tokens)
    (short : bytes.length + 1 < UInt32.size) : ∀ token ∈ tokens, token.span.Located bytes := by
  intro token member
  obtain ⟨before, data, after, kind, rfl, rfl⟩ := tiles.exists_of_mem member
  rw [List.append_nil]
  refine Span.after_located file data.length before (data ++ after) ?_
  rw [List.length_append] at short
  omega

/-- Each token precedes all that follow it. -/
theorem pairwise_precedes (tiles : Tiles file behind covered tokens)
    (short : behind.length + covered.length + 1 < UInt32.size) :
    tokens.Pairwise fun left right => left.span.Precedes right.span := by
  induction tiles with
  | nil => exact .nil
  | @cons behind data covered kind tokens nonempty later ih =>
      rw [List.length_append] at short
      refine .cons ?_ (ih ?_)
      · intro token member
        obtain ⟨before, inner, after, other, rfl, rfl⟩ := later.exists_of_mem member
        have present : data ++ before ≠ [] := by simp [nonempty]
        have further : (Span.after file behind data.length).Precedes
            (.after file ((data ++ before).reverse ++ behind) inner.length) := by
          refine Span.after_precedes file data.length present inner.length ?_
          simp only [List.length_append, List.length_reverse] at short ⊢
          omega
        simpa [Token.after, List.append_assoc] using further
      · rw [List.length_append, List.length_reverse]
        omega

end Tiles

end PageScript
