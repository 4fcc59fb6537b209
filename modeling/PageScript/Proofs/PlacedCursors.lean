import PageScript.Proofs.LineTable
import PageScript.Proofs.StepDecoding

/-!
# Placed cursors

What a cursor has on either side follows from its offset in the page, so moving and reading
come down to numbers.  `Cursor.standing` is a cursor at an offset, whatever its mark is.  If
the lines were counted up to the mark, they follow from the mark in the same way, and three
numbers are left: `Cursor.placed` is the cursor with that mark, that offset and that width of
its last reading.

Nothing is said about the order of mark and offset.  Only what asks for the pending text
depends on it.
-/

namespace PageScript.Cursor

variable {page : Bytes} {marked : Cursor} {start offset width count : Nat}
  {accepts : Char → Bool}

/-! ### Moving -/

/-- A cursor at an offset of a page.  Its mark and its lines are those of another one. -/
def standing (marked : Cursor) (page : Bytes) (offset width : Nat) : Cursor :=
  { marked with
    behind := (page.take offset).reverse
    ahead := page.drop offset
    size := page.length
    offset
    width }

/-- Moving on changes the offset alone, and leads no further than to the end. -/
theorem forward_standing (fits : offset ≤ page.length) :
    (marked.standing page offset width).forward count =
      marked.standing page (min (offset + count) page.length) width := by
  have behind : page.take (min (offset + count) page.length) =
      page.take offset ++ (page.drop offset).take count := by
    rw [← List.take_add, ← List.take_eq_take_min]
  have ahead : page.drop (min (offset + count) page.length) =
      (page.drop offset).drop count := by
    rw [List.drop_drop]
    by_cases inside : offset + count ≤ page.length
    · rw [Nat.min_eq_left inside]
    · rw [Nat.min_eq_right (by omega), List.drop_length, List.drop_eq_nil_of_le (by omega)]
  have reached : offset + min count (page.length - offset) =
      min (offset + count) page.length := by omega
  simp only [forward, Cursor.left, standing, List.reverseAux_eq, ← List.reverse_append, behind,
    ahead, reached]

/-- Moving on over bytes that are there leads behind them. -/
theorem forward_standing_of_le (fits : offset + count ≤ page.length) :
    (marked.standing page offset width).forward count =
      marked.standing page (offset + count) width := by
  rw [forward_standing (by omega), Nat.min_eq_left fits]

/-- Moving back changes the offset alone too. -/
theorem backward_standing (fits : offset ≤ page.length) :
    (marked.standing page offset width).backward count =
      marked.standing page (offset - count) width := by
  have length : (page.take offset).length = offset := List.length_take_of_le fits
  have kept : (page.take offset).take (offset - count) = page.take (offset - count) := by
    rw [List.take_take, Nat.min_eq_left (Nat.sub_le _ _)]
  have behind : (page.take offset).reverse.drop count = (page.take (offset - count)).reverse := by
    rw [List.drop_reverse, length, kept]
  have passed : (page.take offset).reverse.take count =
      ((page.take offset).drop (offset - count)).reverse := by
    rw [List.take_reverse, length]
  have ahead : (page.take offset).drop (offset - count) ++ page.drop offset =
      page.drop (offset - count) := by
    have whole := congrArg (List.drop (offset - count)) (List.take_append_drop offset page)
    rwa [List.drop_append_of_le_length (by rw [length]; exact Nat.sub_le _ _)] at whole
  simp only [backward, standing, behind, passed, List.reverseAux_eq, List.reverse_reverse, ahead]

/-! ### Reading -/

/-- A character of the bytes left ends inside the page. -/
theorem add_size_le_of_next? {char : Char} {size : Nat}
    (read : Utf8.next? (page.drop offset) = some (char, size)) :
    offset + size ≤ page.length := by
  have bounds := Utf8.size_bounds_of_next? read
  rw [List.length_drop] at bounds
  omega

theorem next_standing_of_none (ended : Utf8.next? (page.drop offset) = none) :
    (marked.standing page offset width).next = (none, marked.standing page offset 0) := by
  rw [next, show (marked.standing page offset width).ahead = page.drop offset from rfl, ended]
  rfl

theorem next_standing_of_some {char : Char} {size : Nat}
    (read : Utf8.next? (page.drop offset) = some (char, size)) :
    (marked.standing page offset width).next =
      (some char, marked.standing page (offset + size) size) := by
  rw [next, show (marked.standing page offset width).ahead = page.drop offset from rfl, read]
  simp only [forward_standing_of_le (add_size_le_of_next? read)]
  rfl

theorem backup_standing (fits : offset ≤ page.length) :
    (marked.standing page offset width).backup = marked.standing page (offset - width) 0 := by
  rw [backup, show (marked.standing page offset width).width = width from rfl,
    backward_standing fits]
  rfl

/-- A character that is refused is not passed. -/
theorem accept_standing (fits : offset ≤ page.length) :
    (marked.standing page offset width).accept accepts =
      match Utf8.next? (page.drop offset) with
      | none => (false, marked.standing page offset 0)
      | some (char, size) =>
          if accepts char then (true, marked.standing page (offset + size) size)
          else (false, marked.standing page offset 0) := by
  cases read : Utf8.next? (page.drop offset) with
  | none =>
      rw [accept, next_standing_of_none read]
      simp only [backup_standing fits, Nat.sub_zero]
  | some pair =>
      have inside := add_size_le_of_next? read
      rw [accept, next_standing_of_some read]
      simp only [backup_standing inside, Nat.add_sub_cancel]

/-- Characters that are accepted are there. -/
theorem charRun_le (accepts : Char → Bool) (bytes : Bytes) :
    charRun accepts bytes ≤ bytes.length := by
  fun_induction charRun accepts bytes with
  | case1 => exact Nat.zero_le _
  | case2 bytes char size read accepted ih =>
      have fits := (Utf8.size_bounds_of_next? read).2.2
      rw [List.length_drop] at ih
      omega
  | case3 => exact Nat.zero_le _

theorem add_charRun_le (accepts : Char → Bool) (fits : offset ≤ page.length) :
    offset + charRun accepts (page.drop offset) ≤ page.length := by
  have run := charRun_le accepts (page.drop offset)
  rw [List.length_drop] at run
  omega

theorem acceptWhile_standing (fits : offset ≤ page.length) :
    (marked.standing page offset width).acceptWhile accepts =
      marked.standing page (offset + charRun accepts (page.drop offset)) 0 := by
  rw [acceptWhile, show (marked.standing page offset width).ahead = page.drop offset from rfl,
    forward_standing_of_le (add_charRun_le accepts fits)]
  rfl

/-- Moving on without decoding, if the new offset is a word. -/
theorem advance_standing (fits : offset ≤ page.length) (word : offset + count < UInt64.size) :
    (marked.standing page offset width).advance count =
      marked.standing page (min (offset + count) page.length) 0 := by
  have here : (marked.standing page offset width).offset = offset := rfl
  rw [advance, here, Nat.mod_eq_of_lt word, seek, here, if_pos (Nat.le_add_right _ _),
    Nat.add_sub_cancel_left, skip, forward_standing fits]
  rfl

/-! ### Pending text -/

/-- A cursor at the front of a page.  The lines of the page are counted up to its mark. -/
def counting (page : Bytes) (start : Nat) : Cursor where
  behind := []
  ahead := page
  size := page.length
  start := start
  offset := 0
  width := 0
  line := 1 + UInt32.ofNat ((page.take start).count Byte.lineFeed)
  lineStart := start - Bytes.sinceBreak (page.take start).reverse

/-- The cursor at an offset of a page, with its mark and the width of its last reading. -/
abbrev placed (page : Bytes) (start offset width : Nat) : Cursor :=
  (counting page start).standing page offset width

theorem ofBytes_eq_placed (page : Bytes) : ofBytes page = placed page 0 0 0 := by
  simp [ofBytes, standing, counting]

theorem pending_placed (fits : offset ≤ page.length) :
    (placed page start offset width).pending =
      if offset < start then .error .behindMark else .ok ((page.take offset).drop start) := by
  by_cases behind : offset < start
  · rw [pending, if_pos behind]
    exact if_pos behind
  · have length : (page.take offset).length = offset := List.length_take_of_le fits
    have passed : offset - (offset - start) = start := Nat.sub_sub_self (Nat.not_lt.mp behind)
    rw [pending, if_neg behind]
    refine (if_neg behind).trans ?_
    simp only [standing, counting, pendingLength, List.take_reverse, length, passed,
      List.reverse_reverse]

/-- The bytes before the mark and those behind it. -/
theorem take_append_held (ordered : start ≤ offset) :
    page.take start ++ (page.take offset).drop start = page.take offset := by
  have split := List.take_append_drop start (page.take offset)
  rwa [List.take_take, Nat.min_eq_left ordered] at split

/-- A cursor in front of its mark holds the bytes between them. -/
theorem placed_eq_holding (ordered : start ≤ offset) (fits : offset ≤ page.length) :
    placed page start offset width =
      { holding (page.take start).reverse ((page.take offset).drop start) (page.drop offset) with
        width := width } := by
  have before : (page.take start).length = start := List.length_take_of_le (by omega)
  have held : ((page.take offset).drop start).length = offset - start := by
    rw [List.length_drop, List.length_take_of_le fits]
  simp only [standing, counting, holding, ← List.reverse_append, take_append_held ordered,
    List.length_reverse, before, held, List.length_drop, List.count_reverse, Cursor.mk.injEq,
    true_and, and_true]
  omega

/-- Moving the mark has nothing to do with the last reading. -/
theorem moveMark_withWidth (cursor : Cursor) (other : Nat) :
    { cursor with width := other }.moveMark =
      cursor.moveMark.map fun after => { after with width := other } := by
  rw [moveMark, moveMark]
  split <;> rfl

/-- The mark moves to the cursor, unless the cursor is behind it. -/
theorem moveMark_placed (fits : offset ≤ page.length) :
    (placed page start offset width).moveMark =
      if offset < start then .error .behindMark else .ok (placed page offset offset width) := by
  by_cases behind : offset < start
  · rw [moveMark, if_pos behind]
    exact if_pos behind
  · have ordered := Nat.not_lt.mp behind
    have nothing : (page.take offset).drop offset = [] :=
      List.drop_eq_nil_of_le (List.length_take_le _ _)
    rw [if_neg behind, placed_eq_holding ordered fits, placed_eq_holding (Nat.le_refl _) fits,
      moveMark_withWidth, moveMark_holding, ← List.reverse_append, take_append_held ordered,
      nothing]
    rfl

theorem takeSpan_placed (file : FileId) (fits : offset ≤ page.length) :
    (placed page start offset width).takeSpan file =
      if offset < start then .error .behindMark
      else
        let before := placed page start offset width
        .ok (⟨start, offset, before.line, before.column, file⟩,
          placed page offset offset width) := by
  rw [takeSpan, moveMark_placed fits]
  by_cases behind : offset < start
  · simp only [if_pos behind]
  · simp only [if_neg behind]
    rfl

end PageScript.Cursor
