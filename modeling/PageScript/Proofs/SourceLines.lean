import PageScript.Proofs.LineTable
import PageScript.Proofs.Utf8Text

/-!
# The line around an offset

A file finds a line by its number and gives it without the line break behind it.  Here the
line around an offset is said without numbers, by the line feeds next to it, and the file is
shown to give that line under the number that a span has.
-/

namespace PageScript

namespace Bytes

/-- The line of a page around an offset: what stands on it before the offset, and from there
on up to the line break.  Carriage returns before the line feed belong to the break. -/
structure LineAround (bytes : Bytes) (offset : Nat) where
  before : Bytes
  front : Bytes
  back : Bytes
  returns : Bytes
  after : Bytes
  page : bytes = before ++ (front ++ (back ++ (returns ++ after)))
  stands : offset = (before ++ front).length
  opens : ∀ byte ∈ before.getLast?, byte = Byte.lineFeed
  unbroken : Byte.lineFeed ∉ front ++ back
  trimmed : ∀ byte ∈ (front ++ back).getLast?, byte ≠ Byte.carriageReturn
  returning : ∀ byte ∈ returns, byte = Byte.carriageReturn
  closes : ∀ byte ∈ after.head?, byte = Byte.lineFeed

end Bytes

namespace SourceFile

variable {text breaks : Bytes}

/-- The line breaks behind a text are those at its end. -/
theorem withoutLineBreaks_append (kept : ∀ byte ∈ text.getLast?, ¬ isLineBreak byte)
    (lost : ∀ byte ∈ breaks, isLineBreak byte) : withoutLineBreaks (text ++ breaks) = text := by
  have others : ∀ byte ∈ breaks.reverse, isLineBreak byte := by simpa using lost
  have stops : text.reverse.dropWhile isLineBreak = text.reverse := by
    cases shape : text.reverse with
    | nil => rfl
    | cons byte rest =>
        have last : text.getLast? = some byte := by
          rw [← List.head?_reverse, shape, List.head?_cons]
        exact List.dropWhile_cons_of_neg (kept byte last)
  rw [withoutLineBreaks, List.reverse_append, List.dropWhile_append_of_pos others, stops,
    List.reverse_reverse]

/-- What a text has at its end besides line breaks is kept. -/
theorem exists_withoutLineBreaks (bytes : Bytes) :
    ∃ text breaks, bytes = text ++ breaks ∧ (∀ byte ∈ text.getLast?, ¬ isLineBreak byte) ∧
      ∀ byte ∈ breaks, isLineBreak byte := by
  obtain ⟨run, rest, split, members, stops, -⟩ := Bytes.exists_run isLineBreak bytes.reverse
  refine ⟨rest.reverse, run.reverse, ?_, ?_, ?_⟩
  · rw [← List.reverse_append, ← split, List.reverse_reverse]
  · intro byte last
    rw [List.getLast?_reverse] at last
    cases rest with
    | nil => contradiction
    | cons first rest =>
        cases last
        exact stops
  · simpa using members

/-- Behind a line feed nothing has been read since. -/
theorem sinceBreak_of_getLast? {front : Bytes}
    (opens : ∀ byte ∈ front.getLast?, byte = Byte.lineFeed) :
    Bytes.sinceBreak front.reverse = 0 := by
  cases shape : front.reverse with
  | nil => rfl
  | cons byte rest =>
      have last : front.getLast? = some byte := by
        rw [← List.head?_reverse, shape, List.head?_cons]
      simp [Bytes.runLength, opens byte last]

/-- Lines begin behind line feeds. -/
theorem lineStarts_of_getLast? (page : SourceFile) {front back : Bytes}
    (split : page.content = front ++ back)
    (opens : ∀ byte ∈ front.getLast?, byte = Byte.lineFeed) :
    page.lineStarts[front.count Byte.lineFeed]? = some front.length := by
  rw [page.lineStarts_getElem? split, sinceBreak_of_getLast? opens, Nat.sub_zero]

theorem length_lineStarts (page : SourceFile) :
    page.lineStarts.length = page.content.count Byte.lineFeed + 1 := by
  rw [lineStarts, List.length_cons, length_lineStartsAfter]

/-- A file gives the line around an offset under the number of the line feeds before it. -/
theorem lineAt?_lineAround (page : SourceFile) {offset : Nat}
    (line : page.content.LineAround offset) :
    page.lineAt? (line.before.count Byte.lineFeed + 1) = some (line.front ++ line.back) := by
  obtain ⟨before, front, back, returns, after, split, -, opens, unbroken, trimmed, returning,
    closes⟩ := line
  have start := page.lineStarts_of_getLast? split opens
  -- the table has the next line if a line feed follows, and then takes it with this line
  have stop : ∃ breaks, (∀ byte ∈ breaks, isLineBreak byte) ∧
      page.content.take
          (page.lineStarts[before.count Byte.lineFeed + 1]?.getD page.content.length) =
        before ++ (front ++ back ++ breaks) := by
    have plain : (front ++ back).count Byte.lineFeed = 0 := List.count_eq_zero.mpr unbroken
    have noFeed : returns.count Byte.lineFeed = 0 :=
      List.count_eq_zero.mpr fun member => absurd (returning _ member) (by decide)
    have isBreak : ∀ byte ∈ returns, isLineBreak byte := by
      intro byte member
      rw [returning byte member]
      rfl
    rw [List.count_append] at plain
    cases after with
    | nil =>
        have last : page.lineStarts[before.count Byte.lineFeed + 1]? = none := by
          rw [List.getElem?_eq_none_iff, length_lineStarts, split]
          simp only [List.count_append, List.count_nil]
          omega
        refine ⟨returns, isBreak, ?_⟩
        rw [last, Option.getD_none, List.take_length, split]
        simp
    | cons feed after =>
        have same : feed = Byte.lineFeed := closes feed rfl
        subst same
        have further : page.content =
            before ++ (front ++ back ++ (returns ++ [Byte.lineFeed])) ++ after := by
          rw [split]
          simp
        have next := page.lineStarts_of_getLast? further
          (by simp [List.getLast?_append])
        have count : (before ++ (front ++ back ++ (returns ++ [Byte.lineFeed]))).count
            Byte.lineFeed = before.count Byte.lineFeed + 1 := by
          simp only [List.count_append, List.count_cons_self, List.count_nil]
          omega
        refine ⟨returns ++ [Byte.lineFeed], ?_, ?_⟩
        · simpa [or_imp, forall_and] using ⟨isBreak, rfl⟩
        · rw [← count, next, Option.getD_some, further, List.take_left]
  obtain ⟨breaks, lost, taken⟩ := stop
  rw [lineAt?]
  simp only [start, taken, List.drop_left]
  rw [withoutLineBreaks_append ?_ lost]
  intro byte last
  have noFeed : byte ≠ Byte.lineFeed := ne_of_mem_of_not_mem (List.mem_of_getLast? last) unbroken
  simp [isLineBreak, noFeed, trimmed byte last]

end SourceFile

namespace Bytes

/-- An offset at which no line break stands is on a line, and its byte too. -/
theorem exists_lineAround (behind : Bytes) {first : UInt8} (rest : Bytes)
    (visible : ¬ SourceFile.isLineBreak first) :
    ∃ line : LineAround (behind ++ first :: rest) behind.length, ∃ more,
      line.back = first :: more := by
  obtain ⟨run, before, split, members, stops, -⟩ :=
    exists_run (· != Byte.lineFeed) behind.reverse
  obtain ⟨more, after, rfl, others, closes, -⟩ := exists_run (· != Byte.lineFeed) rest
  obtain ⟨text, breaks, rfl, kept, lost⟩ := SourceFile.exists_withoutLineBreaks more
  have front : behind = before.reverse ++ run.reverse := by
    rw [← List.reverse_append, ← split, List.reverse_reverse]
  subst front
  have notFeed : first ≠ Byte.lineFeed :=
    fun same => visible (by simp [same, SourceFile.isLineBreak])
  refine ⟨⟨before.reverse, run.reverse, first :: text, breaks, after, by simp, rfl, ?_, ?_, ?_,
    ?_, ?_⟩, text, rfl⟩
  · intro byte last
    rw [List.getLast?_reverse] at last
    cases before with
    | nil => contradiction
    | cons feed before =>
        cases last
        simpa using stops
  · intro member
    simp only [List.mem_append, List.mem_reverse, List.mem_cons] at member
    rcases member with inRun | same | inText
    · exact absurd (members _ inRun) (by simp)
    · exact notFeed same.symm
    · exact absurd (others _ (List.mem_append_left _ inText)) (by simp)
  · intro byte last same
    subst same
    have inBack : (first :: text).getLast? = some Byte.carriageReturn := by
      simpa [List.getLast?_append] using last
    cases shape : text.getLast? with
    | none =>
        rw [List.getLast?_eq_none_iff] at shape
        subst shape
        cases inBack
        exact visible rfl
    | some byte =>
        have same : byte = Byte.carriageReturn := by
          simpa [List.getLast?_cons, shape] using inBack
        exact kept byte shape (by simp [same, SourceFile.isLineBreak])
  · intro byte member
    have isBreak := lost byte member
    have noFeed := others byte (List.mem_append_right _ member)
    simp only [SourceFile.isLineBreak, Bool.or_eq_true, beq_iff_eq, bne_iff_ne] at isBreak noFeed
    exact isBreak.resolve_left noFeed
  · intro byte head
    cases after with
    | nil => contradiction
    | cons feed after =>
        cases head
        simpa using closes

namespace LineAround

open Utf8 (IsText)

variable {bytes : Bytes} {offset : Nat}

/-- A line before whose offset and at whose offset characters end is text on either side. -/
theorem isText (line : bytes.LineAround offset) (valid : IsText bytes)
    (ascii : ∀ byte ∈ line.back.head?, byte < 0x80) : IsText line.front ∧ IsText line.back := by
  have lineFeed : Byte.lineFeed < 0x80 := by decide
  have behind : ∀ byte ∈ (line.returns ++ line.after).head?, byte < 0x80 := by
    intro byte head
    rw [List.head?_append, Option.mem_def, Option.or_eq_some_iff] at head
    rcases head with inReturns | ⟨-, inAfter⟩
    · rw [line.returning byte (List.mem_of_head? inReturns)]
      decide
    · exact line.closes byte inAfter ▸ lineFeed
  have onward : ∀ byte ∈ (line.back ++ (line.returns ++ line.after)).head?, byte < 0x80 := by
    intro byte head
    rw [List.head?_append, Option.mem_def, Option.or_eq_some_iff] at head
    rcases head with inBack | ⟨-, inBreak⟩
    · exact ascii byte inBack
    · exact behind byte inBreak
  rw [line.page] at valid
  obtain ⟨-, valid⟩ := valid.split (.inl fun byte last => line.opens byte last ▸ lineFeed)
  obtain ⟨frontText, valid⟩ := valid.split (.inr onward)
  exact ⟨frontText, (valid.split (.inr behind)).1⟩

/-- What stands before the line and on it is what was read before the offset. -/
theorem behind_eq {behind ahead : Bytes} (split : bytes = behind ++ ahead)
    (line : bytes.LineAround behind.length) : behind = line.before ++ line.front := by
  have page := line.page
  rw [← List.append_assoc] at page
  exact List.append_inj_left (split.symm.trans page) line.stands

theorem count_le (line : bytes.LineAround offset) :
    line.before.count Byte.lineFeed ≤ bytes.count Byte.lineFeed := by
  have counted := congrArg (List.count Byte.lineFeed) line.page
  rw [List.count_append] at counted
  omega

/-- A span has the number of its line, and its column counts the bytes on the line. -/
theorem after_toNat {behind ahead : Bytes} (split : bytes = behind ++ ahead)
    (line : bytes.LineAround behind.length) (file : FileId) (size : Nat)
    (short : behind.length + 1 < UInt32.size) :
    (Span.after file behind.reverse size).line.toNat = line.before.count Byte.lineFeed + 1 ∧
      (Span.after file behind.reverse size).column.toNat = line.front.length + 1 := by
  have read := line.behind_eq split
  have long : behind.reverse.length + 1 < UInt32.size := by rwa [List.length_reverse]
  have plain : Byte.lineFeed ∉ line.front := fun member =>
    line.unbroken (List.mem_append_left _ member)
  have feeds : behind.count Byte.lineFeed = line.before.count Byte.lineFeed := by
    refine (congrArg (List.count Byte.lineFeed) read).trans ?_
    rw [List.count_append, List.count_eq_zero.mpr plain, Nat.add_zero]
  have since : sinceBreak behind.reverse = line.front.length := by
    refine (congrArg (sinceBreak ·.reverse) read).trans ?_
    simp only [List.reverse_append]
    rw [sinceBreak_append plain, SourceFile.sinceBreak_of_getLast? line.opens, Nat.add_zero]
  rw [Span.after_line_toNat file size long, Span.after_column_toNat file size long,
    List.count_reverse, feeds, since, Nat.add_comm]
  exact ⟨rfl, rfl⟩

end LineAround

end Bytes

end PageScript
