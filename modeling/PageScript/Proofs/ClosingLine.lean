import PageScript.Proofs.BodyShape

/-!
# The first closing line

The scanner looks for the closing line of a heredoc at every line break it comes to,
while escapes and variables move it on by several bytes at a time.  Cut into lines, the
bytes after a header say the same without a scanner: the heredoc ends at the first line
that closes it.

The two agree because no line break is ever stepped over: at every byte of a body the
scanner has looked, or could have looked in vain, for a closing line.
-/

namespace PageScript

namespace Bytes

/-- The lines that bytes are cut into at line feeds. -/
def lines (bytes : Bytes) : List Bytes :=
  bytes.splitOn Byte.lineFeed

/-- Bytes are one line, or a line, a line feed and further lines. -/
theorem lines_induction {motive : Bytes → Prop}
    (last : ∀ line, Byte.lineFeed ∉ line → motive line)
    (cons : ∀ line rest, Byte.lineFeed ∉ line → motive rest →
      motive (line ++ Byte.lineFeed :: rest))
    (bytes : Bytes) : motive bytes := by
  by_cases feeds : Byte.lineFeed ∈ bytes
  · obtain ⟨line, rest, split, plain⟩ := List.eq_append_cons_of_mem feeds
    have shorter : rest.length < bytes.length := by
      rw [split, List.length_append, List.length_cons]
      omega
    rw [split]
    exact cons line rest plain (lines_induction last cons rest)
  · exact last bytes feeds
  termination_by bytes.length

theorem lines_of_not_mem {line : Bytes} (plain : Byte.lineFeed ∉ line) : lines line = [line] :=
  List.splitOn_eq_singleton plain

theorem lines_append (front back : Bytes) :
    lines (front ++ Byte.lineFeed :: back) = lines front ++ lines back :=
  List.splitOn_append_cons_self front back

theorem lines_cons {line : Bytes} (plain : Byte.lineFeed ∉ line) (rest : Bytes) :
    lines (line ++ Byte.lineFeed :: rest) = line :: lines rest :=
  List.splitOn_append_cons_self_of_not_mem plain rest

/-- The end of the page, or a line feed. -/
def EndsLine (bytes : Bytes) : Prop :=
  bytes = [] ∨ ∃ rest, bytes = Byte.lineFeed :: rest

/-- No name goes on where a line ends. -/
theorem EndsLine.not_startsWhere {bytes : Bytes} (ends : EndsLine bytes) :
    ¬ startsWhere Byte.isNamePart bytes := by
  rcases ends with rfl | ⟨rest, rfl⟩
  · simp
  · exact (by decide : ¬ Byte.isNamePart Byte.lineFeed)

theorem EndsLine.append {front back : Bytes} (ends : EndsLine front) (later : EndsLine back) :
    EndsLine (front ++ back) := by
  rcases ends with rfl | ⟨rest, rfl⟩
  · exact later
  · exact .inr ⟨rest ++ back, rfl⟩

/-- The first line ends where a line ends. -/
theorem exists_first_line (bytes : Bytes) :
    ∃ line after later, bytes = line ++ after ∧ EndsLine after ∧ lines bytes = line :: later := by
  induction bytes using lines_induction with
  | last line plain => exact ⟨line, [], [], by simp, .inl rfl, lines_of_not_mem plain⟩
  | cons line rest plain =>
      exact ⟨line, _, lines rest, rfl, .inr ⟨rest, rfl⟩, lines_cons plain rest⟩

/-- A line stands at the front or behind a line feed, up to where a line ends. -/
theorem exists_of_mem_lines {bytes line : Bytes} (member : line ∈ lines bytes) :
    ∃ before after, bytes = before ++ (line ++ after) ∧ EndsLine after ∧
      (before = [] ∨ ∃ init, before = init ++ [Byte.lineFeed]) := by
  induction bytes using lines_induction with
  | last only plain =>
      rw [lines_of_not_mem plain, List.mem_singleton] at member
      subst member
      exact ⟨[], [], by simp, .inl rfl, .inl rfl⟩
  | cons first rest plain ih =>
      rw [lines_cons plain] at member
      rcases List.mem_cons.mp member with rfl | later
      · exact ⟨[], _, rfl, .inr ⟨rest, rfl⟩, .inl rfl⟩
      · obtain ⟨before, after, rfl, ends, stands⟩ := ih later
        refine ⟨first ++ Byte.lineFeed :: before, after, by simp, ends, .inr ?_⟩
        rcases stands with rfl | ⟨init, rfl⟩
        · exact ⟨first, rfl⟩
        · exact ⟨first ++ Byte.lineFeed :: init, by simp⟩

/-- Number of bytes that lines take with the line feeds behind them. -/
def linesLength : List Bytes → Nat
  | [] => 0
  | line :: rest => line.length + 1 + linesLength rest

/-- Behind the last of all lines there is no line feed. -/
theorem linesLength_lines (bytes : Bytes) : linesLength (lines bytes) = bytes.length + 1 := by
  induction bytes using lines_induction with
  | last line plain => simp [lines_of_not_mem plain, linesLength]
  | cons line rest plain ih =>
      simp only [lines_cons plain, linesLength, ih, List.length_append, List.length_cons]
      omega

/-- The last line ends as the bytes do. -/
theorem exists_last_line (bytes : Bytes) : ∃ line, (lines bytes).getLast? = some line ∧
    (line.getLast? = some Byte.carriageReturn ↔
      bytes.getLast? = some Byte.carriageReturn) := by
  induction bytes using lines_induction with
  | last line plain => exact ⟨line, by simp [lines_of_not_mem plain], Iff.rfl⟩
  | cons line rest plain ih =>
      obtain ⟨last, found, same⟩ := ih
      refine ⟨last, by simp [lines_cons plain, List.getLast?_cons, found], same.trans ?_⟩
      cases rest with
      | nil =>
          have other : Byte.lineFeed ≠ Byte.carriageReturn := by decide
          simp [other]
      | cons first rest => simp [List.getLast?_append, List.getLast?_cons]

theorem IsName.not_mem_lineFeed {name : Bytes} (isName : IsName name) :
    Byte.lineFeed ∉ name :=
  fun member => absurd (isName.members _ member) (by decide)

end Bytes

namespace Heredoc

open Bytes (EndsLine IsName lines)

/-- A line that closes a heredoc with a label. -/
def Closes (label line : Bytes) : Prop :=
  ∃ size, IsClosing label line size

variable {label line rest : Bytes} {size : Nat}

/-- A closing line closes, whatever ends it. -/
theorem IsClosing.append (closing : IsClosing label line size) (ends : EndsLine rest) :
    IsClosing label (line ++ rest) size := by
  obtain @⟨blanks, after, blank, stops⟩ := closing
  rw [List.append_assoc _ after]
  refine .mk blank ?_
  cases after with
  | nil => exact ends.not_startsWhere
  | cons byte after => exact stops

/-- A closing line at the front closes on its own. -/
theorem IsClosing.of_append (isName : IsName label) (ends : EndsLine rest)
    (closing : IsClosing label (line ++ rest) size) : IsClosing label line size := by
  generalize whole : line ++ rest = bytes at closing
  obtain @⟨blanks, after, blank, stops⟩ := closing
  have plain : Byte.lineFeed ∉ blanks ++ label := by
    intro member
    rcases List.mem_append.mp member with inBlanks | inLabel
    · exact absurd (blank _ inBlanks) (by decide)
    · exact isName.not_mem_lineFeed inLabel
  rcases List.append_eq_append_iff.mp whole with ⟨more, across, rfl⟩ | ⟨more, rfl, rfl⟩
  · -- The label cannot go on behind the line, where a line feed stands.
    cases more with
    | nil =>
        rw [List.append_nil] at across
        rw [← across, ← List.append_nil (blanks ++ label)]
        exact .mk blank (by simp)
    | cons byte more =>
        rw [across] at plain
        rcases ends with none | ⟨rest, split⟩
        · contradiction
        · rw [List.cons_append, List.cons.injEq] at split
          simp [split.1] at plain
  · refine .mk blank ?_
    cases more with
    | nil => simp
    | cons byte more => exact stops

/-- Only a byte of a line break begins a closer. -/
theorem closerLength?_of_ne {byte : UInt8} {rest : Bytes} (notLineFeed : byte ≠ Byte.lineFeed)
    (notCarriageReturn : byte ≠ Byte.carriageReturn) :
    closerLength? label (byte :: rest) = none := by
  simp [closerLength?, Bytes.lineBreakLength, notLineFeed, notCarriageReturn]

/-- Behind a line feed a closer is a closing line. -/
theorem closerLength?_lineFeed (rest : Bytes) :
    closerLength? label (Byte.lineFeed :: rest) = (closingLength? label rest).map (1 + ·) := by
  simp [closerLength?, Bytes.lineBreakLength]

theorem closerLength?_carriageReturn (rest : Bytes) :
    closerLength? label (Byte.carriageReturn :: Byte.lineFeed :: rest) =
      (closingLength? label rest).map (2 + ·) :=
  rfl

/-- Every line break that a run of text takes has been looked at, or is none. -/
theorem closerLength?_of_lt_textLength {label bytes : Bytes} {offset : Nat}
    (inText : offset < Lexeme.textLength (.heredoc label) bytes) :
    closerLength? label (bytes.drop offset) = none := by
  fun_induction Lexeme.textLength (.heredoc label) bytes generalizing offset with
  | case1 => contradiction
  | case2 =>
      cases Nat.lt_one_iff.mp inText
      exact closerLength?_of_ne (by decide) (by decide)
  | case3 following after _ ih =>
      cases offset with
      | zero => exact closerLength?_of_ne (by decide) (by decide)
      | succ offset => exact ih (Nat.lt_of_succ_lt_succ inText)
  | case4 following after keeps ih =>
      cases offset with
      | zero => exact closerLength?_of_ne (by decide) (by decide)
      | succ offset =>
          cases offset with
          | zero =>
              simp only [Lexeme.keepsLineBreak, Bool.or_eq_true, beq_iff_eq, not_or] at keeps
              exact closerLength?_of_ne keeps.1 keeps.2
          | succ offset =>
              exact ih (Nat.lt_of_succ_lt_succ (Nat.lt_of_succ_lt_succ inText))
  | case5 => contradiction
  | case6 => contradiction
  | case7 byte rest _ _ notClosed ih =>
      cases offset with
      | zero => simpa [Lexeme.terminator?] using notClosed
      | succ offset => exact ih (Nat.lt_of_succ_lt_succ inText)

/-- No byte of a variable begins a closer. -/
theorem closerLength?_of_isVariable {sigiled : Bytes} (isVariable : Lexeme.IsVariable sigiled)
    {offset : Nat} (inVariable : offset < sigiled.length) (rest : Bytes) :
    closerLength? label ((sigiled ++ rest).drop offset) = none := by
  have member := List.getElem_mem inVariable
  rw [List.drop_append_of_le_length (Nat.le_of_lt inVariable),
    List.drop_eq_getElem_cons inVariable, List.cons_append]
  obtain ⟨name, rfl, isName⟩ := isVariable
  rcases List.mem_cons.mp member with same | inName
  · rw [same]
    exact closerLength?_of_ne (by decide) (by decide)
  · refine closerLength?_of_ne ?_ ?_
    · intro same
      exact absurd (isName.members _ (same ▸ inName)) (by decide)
    · intro same
      exact absurd (isName.members _ (same ▸ inName)) (by decide)

/-- No closer begins in the body of a heredoc. -/
theorem closerLength?_of_isParts {label body rest : Bytes} {parts : List Lexeme}
    (shape : Lexeme.IsParts (.heredoc label) body parts rest) (offset : Nat)
    (inBody : offset < body.length) : closerLength? label ((body ++ rest).drop offset) = none := by
  induction shape generalizing offset with
  | text length => exact closerLength?_of_lt_textLength (length ▸ inBody)
  | @interpolated text sigiled body rest parts length isVariable stops _ ih =>
      simp only [List.append_assoc]
      by_cases inText : offset < text.length
      · exact closerLength?_of_lt_textLength (length ▸ inText)
      obtain ⟨offset, rfl⟩ := Nat.exists_eq_add_of_le (Nat.le_of_not_lt inText)
      rw [← List.drop_drop, List.drop_left]
      by_cases inVariable : offset < sigiled.length
      · exact closerLength?_of_isVariable isVariable inVariable _
      obtain ⟨offset, rfl⟩ := Nat.exists_eq_add_of_le (Nat.le_of_not_lt inVariable)
      rw [← List.drop_drop, List.drop_left]
      refine ih offset ?_
      simp only [List.length_append] at inBody
      omega

/-- If no closer begins at a line feed in front of where a line ends, and the first line
does not close, no line in front closes. -/
theorem not_closes_of_mem_lines {label front line : Bytes} (isName : IsName label)
    (back : Bytes) (ends : EndsLine back) (staysOpen : closingLength? label (front ++ back) = none)
    (quiet : ∀ before after, front = before ++ Byte.lineFeed :: after →
      closerLength? label (Byte.lineFeed :: (after ++ back)) = none)
    (member : line ∈ lines front) : ¬ Closes label line := by
  rintro ⟨size, closing⟩
  obtain ⟨before, after, rfl, endsHere, stands⟩ := Bytes.exists_of_mem_lines member
  have found : closingLength? label (line ++ (after ++ back)) = some size :=
    (closingLength?_eq_some_iff isName).mpr (closing.append (endsHere.append ends))
  rcases stands with rfl | ⟨init, rfl⟩
  · rw [List.nil_append, List.append_assoc, found] at staysOpen
    contradiction
  · have none := quiet init (line ++ after) (by simp)
    rw [closerLength?_lineFeed, List.append_assoc, found] at none
    contradiction

/-- Lines whose first closing line comes after `earlier` and has its label end at `size`. -/
def IsFirstClosing (label : Bytes) (all earlier : List Bytes) (size : Nat) : Prop :=
  ∃ line later, all = earlier ++ line :: later ∧ (∀ line ∈ earlier, ¬ Closes label line) ∧
    IsClosing label line size

/-- There is only one first closing line. -/
theorem IsFirstClosing.unique {label : Bytes} {all earlier others : List Bytes} {size other : Nat}
    (isName : IsName label) (first : IsFirstClosing label all earlier size)
    (again : IsFirstClosing label all others other) : earlier = others ∧ size = other := by
  obtain ⟨line, later, rfl, noneCloses, closing⟩ := first
  obtain ⟨same, rest, split, noneBefore, otherClosing⟩ := again
  induction earlier generalizing others with
  | nil =>
      cases others with
      | nil =>
          obtain ⟨rfl, rfl⟩ := List.cons.inj split
          have found := (closingLength?_eq_some_iff isName).mpr closing
          rw [(closingLength?_eq_some_iff isName).mpr otherClosing] at found
          exact ⟨rfl, (Option.some.inj found).symm⟩
      | cons head others =>
          obtain ⟨rfl, -⟩ := List.cons.inj split
          exact absurd ⟨size, closing⟩ (noneBefore line List.mem_cons_self)
  | cons head earlier ih =>
      cases others with
      | nil =>
          obtain ⟨rfl, -⟩ := List.cons.inj split
          exact absurd ⟨other, otherClosing⟩ (noneCloses head List.mem_cons_self)
      | cons head' others =>
          rw [List.cons_append, List.cons_append, List.cons.injEq] at split
          obtain ⟨rfl, split⟩ := split
          obtain ⟨rfl, rfl⟩ := ih (List.forall_mem_cons.mp noneCloses).2 split
            (List.forall_mem_cons.mp noneBefore).2
          exact ⟨rfl, rfl⟩

/-- Length of the line break behind lines: none behind no lines, and two bytes where a
carriage return precedes the line feed. -/
def breakLength (earlier : List Bytes) : Nat :=
  match earlier.getLast? with
  | none => 0
  | some line => if line.getLast? = some Byte.carriageReturn then 2 else 1

theorem breakLength_lines (front : Bytes) :
    breakLength (lines front) =
      if front.getLast? = some Byte.carriageReturn then 2 else 1 := by
  obtain ⟨line, found, same⟩ := Bytes.exists_last_line front
  simp only [breakLength, found, same]

end Heredoc

end PageScript
