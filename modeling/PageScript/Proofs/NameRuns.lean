import PageScript.Proofs.Characters
import PageScript.Proofs.PlacedCursors

/-!
# Names read by characters

Characters are accepted one by one until one is refused, and that last reading is undone.
Where the mark stands and which lines were counted makes no difference to it, so this is said
of any cursor that stands in a page.

The characters of names and the bytes of names agree on broken bytes too.  A cursor that
accepts the characters stops behind the longest run of the bytes, and it sees a character
that may open a name exactly where such a byte stands.
-/

namespace PageScript

namespace Cursor

/-- A character that is read is taken from the bytes left. -/
theorem ahead_length_lt_of_next {cursor after : Cursor} {char : Char}
    (read : cursor.next = (some char, after)) : after.ahead.length < cursor.ahead.length := by
  rw [next] at read
  split at read
  · cases read
  · next found =>
      cases read
      exact Utf8.length_drop_lt_of_next? found

/-- Read characters up to and with the first one that is refused, or to the end.  This ends
because every reading takes a byte. -/
def readWhile (cursor : Cursor) (accepts : Char → Bool) : Cursor :=
  match _read : cursor.next with
  | (none, after) => after
  | (some char, after) => if accepts char then after.readWhile accepts else after
  termination_by cursor.ahead.length
  decreasing_by exact ahead_length_lt_of_next _read

theorem readWhile_of_next {cursor after : Cursor} {char? : Option Char} (accepts : Char → Bool)
    (read : cursor.next = (char?, after)) :
    cursor.readWhile accepts = if char?.any accepts then after.readWhile accepts else after := by
  rw [readWhile.eq_def]
  split
  · next ended =>
      cases ended.symm.trans read
      rfl
  · next found =>
      cases found.symm.trans read
      rfl

/-- The cursor has the bytes of a page on either side, as its offset says. -/
structure StandsIn (page : Bytes) (cursor : Cursor) : Prop where
  source_eq : cursor.source = page
  behind_length : cursor.behind.length = cursor.offset
  size_eq : cursor.size = page.length

variable {page : Bytes} {cursor marked : Cursor} {offset width : Nat} {accepts : Char → Bool}

theorem StandsIn.offset_le (stands : cursor.StandsIn page) : cursor.offset ≤ page.length := by
  rw [← stands.source_eq, source, ← stands.behind_length, List.length_append, List.length_reverse]
  exact Nat.le_add_right _ _

theorem StandsIn.eq_standing (stands : cursor.StandsIn page) :
    cursor = cursor.standing page cursor.offset cursor.width := by
  have before : page.take cursor.offset = cursor.behind.reverse := by
    rw [← stands.source_eq, source, ← stands.behind_length, ← List.length_reverse, List.take_left]
  have rest : page.drop cursor.offset = cursor.ahead := by
    rw [← stands.source_eq, source, ← stands.behind_length, ← List.length_reverse, List.drop_left]
  rw [standing, before, rest, List.reverse_reverse, ← stands.size_eq]

theorem standing_standsIn (fits : offset ≤ page.length) :
    (marked.standing page offset width).StandsIn page where
  source_eq := by
    simp only [source, standing, List.reverse_reverse]
    exact List.take_append_drop offset page
  behind_length := by simp [standing, fits]
  size_eq := rfl

theorem StandsIn.ahead_eq (stands : cursor.StandsIn page) :
    cursor.ahead = page.drop cursor.offset := by
  rw [stands.eq_standing]
  rfl

/-- The reading that ends the run is the one behind it. -/
theorem exists_readWhile_standing (marked : Cursor) (accepts : Char → Bool) (width : Nat)
    (fits : offset ≤ page.length) :
    ∃ reached size,
      (marked.standing page offset width).readWhile accepts =
        marked.standing page (reached + size) size ∧
      reached = offset + charRun accepts (page.drop offset) ∧ reached + size ≤ page.length := by
  generalize left : page.drop offset = bytes
  fun_induction charRun accepts bytes generalizing offset width with
  | case1 bytes ended =>
      subst left
      refine ⟨offset, 0, ?_, rfl, fits⟩
      rw [readWhile_of_next accepts (next_standing_of_none ended)]
      rfl
  | case2 bytes char size read accepted ih =>
      subst left
      obtain ⟨reached, last, same, run, inside⟩ :=
        ih size (add_size_le_of_next? read) List.drop_drop.symm
      refine ⟨reached, last, ?_, by rw [run, Nat.add_assoc], inside⟩
      rw [readWhile_of_next accepts (next_standing_of_some read), Option.any_some, if_pos accepted,
        same]
  | case3 bytes char size read refused =>
      subst left
      refine ⟨offset, size, ?_, rfl, add_size_le_of_next? read⟩
      rw [readWhile_of_next accepts (next_standing_of_some read), Option.any_some, if_neg refused]

/-- Undoing the reading that was refused leaves the characters accepted. -/
theorem backup_readWhile (stands : cursor.StandsIn page) (accepts : Char → Bool) :
    (cursor.readWhile accepts).backup = cursor.acceptWhile accepts := by
  rw [stands.eq_standing, acceptWhile_standing stands.offset_le]
  obtain ⟨reached, size, same, run, inside⟩ :=
    exists_readWhile_standing cursor accepts cursor.width stands.offset_le
  rw [same, backup_standing inside, Nat.add_sub_cancel, run]

/-- The character that is seen and the byte that is there belong to classes that agree. -/
theorem peek_any {accept : UInt8 → Bool} {beyond : Bool} (agree : Agree accepts accept beyond)
    (cursor : Cursor) : cursor.peek.any accepts = cursor.ahead.startsWhere accept := by
  rw [peek]
  generalize cursor.ahead = bytes
  cases read : Utf8.next? bytes with
  | none =>
      cases Utf8.eq_nil_of_next? read
      rfl
  | some pair =>
      obtain ⟨char, size⟩ := pair
      cases Utf8.isRead_of_next? read with
      | ascii rest small => exact agree.ascii _ small
      | beyond rest all outside =>
          exact (agree.char char outside).trans
            (agree.byte _ (Utf8.isBeyondAscii_cons.mp all).1).symm

theorem agree_isNameStart :
    Agree Text.isNameStart (fun byte => Byte.isNamePart byte && !Byte.isDigit byte) true where
  ascii := by
    intro byte small
    have code : byte.toNat < 128 := UInt8.lt_iff_toNat_lt.mp small
    have all : ∀ code : Fin 128, Text.isNameStart (Char.ofNat code.val) =
        (Byte.isNamePart (UInt8.ofNat code.val) && !Byte.isDigit (UInt8.ofNat code.val)) := by
      decide
    simpa using all ⟨byte.toNat, code⟩
  char := by
    intro char outside
    simp [Text.isNameStart, outside]
  byte := by
    intro byte large
    have noDigit : ¬ byte ≤ 0x39 := UInt8.not_le.mpr (UInt8.lt_of_lt_of_le (by decide) large)
    simp [Byte.isNamePart, Byte.isNameStart, Byte.isDigit, large, noDigit]

/-- A cursor has moved over the longest run of bytes of a name, and nothing else of it has
changed. -/
structure MovedOverName (page : Bytes) (before after : Cursor) : Prop where
  run : ∃ run rest : Bytes, page.drop before.offset = run ++ rest ∧
    (∀ byte ∈ run, Byte.isNamePart byte) ∧ ¬ rest.startsWhere Byte.isNamePart ∧
    after.offset = before.offset + run.length
  stands : after.StandsIn page
  width_eq : after.width = 0
  start_eq : after.start = before.start
  line_eq : after.line = before.line
  lineStart_eq : after.lineStart = before.lineStart

theorem acceptWhile_movedOverName (stands : cursor.StandsIn page) :
    MovedOverName page cursor (cursor.acceptWhile Text.isNamePart) := by
  have reached : cursor.acceptWhile Text.isNamePart = cursor.standing page
      (cursor.offset + charRun Text.isNamePart (page.drop cursor.offset)) 0 :=
    calc
      cursor.acceptWhile Text.isNamePart =
          (cursor.standing page cursor.offset cursor.width).acceptWhile Text.isNamePart :=
        congrArg (fun other : Cursor => other.acceptWhile Text.isNamePart) stands.eq_standing
      _ = _ := acceptWhile_standing stands.offset_le
  have inside := add_charRun_le Text.isNamePart stands.offset_le
  obtain ⟨run, rest, split, members, stops, length⟩ :=
    Bytes.exists_run Byte.isNamePart (page.drop cursor.offset)
  rw [← charRun_eq_runLength agree_isNamePart] at length
  rw [reached]
  constructor
  · exact ⟨run, rest, split, members, stops, congrArg (cursor.offset + ·) length⟩
  · exact standing_standsIn inside
  · rfl
  · rfl
  · rfl
  · rfl

/-- Accepting the characters of a name ends, and moves over the longest run of its bytes.  The
next character may open a name exactly if the next byte belongs to a name and is no digit. -/
theorem acceptWhile_isNamePart (page : Bytes) (cursor : Cursor) (stands : cursor.StandsIn page) :
    cursor.acceptWhile Text.isNamePart = (cursor.readWhile Text.isNamePart).backup ∧
      MovedOverName page cursor (cursor.acceptWhile Text.isNamePart) ∧
      (cursor.peek.any Text.isNameStart ↔
        ∃ byte, page[cursor.offset]? = some byte ∧ Byte.isNamePart byte ∧
          ¬ Byte.isDigit byte) := by
  refine ⟨(backup_readWhile stands _).symm, acceptWhile_movedOverName stands, ?_⟩
  rw [peek_any agree_isNameStart, stands.ahead_eq, Bytes.startsWhere_drop_iff]
  simp

/-- Behind a sigil stand a letter, the first bytes of a longer character and a digit. -/
theorem acceptWhile_isNamePart_truncated :
    let page : Bytes := [0x24, 0x61, 0xE2, 0x82, 0x39, 0x2D]
    let cursor := (ofBytes page).skip 1
    cursor.StandsIn page ∧
      cursor.acceptWhile Text.isNamePart = (cursor.readWhile Text.isNamePart).backup ∧
      MovedOverName page cursor (cursor.acceptWhile Text.isNamePart) ∧
      (cursor.peek.any Text.isNameStart ↔
        ∃ byte, page[cursor.offset]? = some byte ∧ Byte.isNamePart byte ∧
          ¬ Byte.isDigit byte) :=
  ⟨⟨rfl, rfl, rfl⟩, acceptWhile_isNamePart _ _ ⟨rfl, rfl, rfl⟩⟩

end Cursor

end PageScript
