import PageScript.Cursor
import PageScript.Proofs.Runs

/-!
# Cursors between tokens

Between two tokens a cursor has nothing pending: its mark stands where it stands, and
everything else about it follows from the bytes on either side.  This module names
that cursor, and the one that has moved on from it with its mark left behind.
-/

namespace PageScript.Cursor

/-- The offsets of a cursor are in order, and it holds as many bytes on either side as
they say. -/
structure InRange (cursor : Cursor) : Prop where
  lineStart_le : cursor.lineStart ≤ cursor.start
  start_le : cursor.start ≤ cursor.offset
  offset_le : cursor.offset ≤ cursor.size
  width_le : cursor.width ≤ cursor.offset
  behind_length : cursor.behind.length = cursor.offset
  ahead_length : cursor.offset + cursor.ahead.length = cursor.size

/-- The cursor that holds `held` pending, between the bytes before its mark, nearest
first, and the bytes left. -/
def holding (behind held ahead : Bytes) : Cursor where
  behind := held.reverse ++ behind
  ahead := ahead
  size := behind.length + held.length + ahead.length
  start := behind.length
  offset := behind.length + held.length
  width := 0
  line := 1 + UInt32.ofNat (behind.count Byte.lineFeed)
  lineStart := behind.length - Bytes.runLength (· != Byte.lineFeed) behind

/-- The cursor between the bytes read, nearest first, and the bytes left, with nothing
pending. -/
def between (behind ahead : Bytes) : Cursor :=
  holding behind [] ahead

theorem ofBytes_eq_between (bytes : Bytes) : ofBytes bytes = between [] bytes := by
  simp [ofBytes, between, holding]

variable (behind held ahead : Bytes)

@[simp] theorem between_ahead : (between behind ahead).ahead = ahead := rfl

@[simp] theorem between_offset : (between behind ahead).offset = behind.length := rfl

@[simp] theorem between_left : (between behind ahead).left = ahead.length := by
  simp [left, between, holding]

theorem holding_inRange : (holding behind held ahead).InRange := by
  constructor <;> simp [holding]
  omega

/-- Skipping bytes that are there holds exactly them. -/
theorem skip_between {count : Nat} (fits : count ≤ ahead.length) :
    (between behind ahead).skip count =
      holding behind (ahead.take count) (ahead.drop count) := by
  simp only [skip, forward, left, between, holding, List.reverseAux_eq, List.length_take,
    List.length_drop, List.length_nil, List.reverse_nil, List.nil_append, Cursor.mk.injEq,
    true_and, and_true]
  omega

/-- The bytes nearest behind the cursor are the pending ones. -/
theorem take_pendingLength_holding :
    (holding behind held ahead).behind.take (holding behind held ahead).pendingLength =
      held.reverse := by
  have length : (holding behind held ahead).pendingLength = held.reverse.length := by
    simp [pendingLength, holding]
  rw [length]
  exact List.take_left

theorem not_behindMark_holding :
    ¬ (holding behind held ahead).offset < (holding behind held ahead).start :=
  Nat.not_lt.mpr (holding_inRange behind held ahead).start_le

@[simp] theorem pending_holding : (holding behind held ahead).pending = .ok held := by
  rw [pending, if_neg (not_behindMark_holding behind held ahead), take_pendingLength_holding,
    List.reverse_reverse]

/-- When the mark follows, the cursor is between tokens again. -/
@[simp] theorem moveMark_holding :
    (holding behind held ahead).moveMark = .ok (between (held.reverse ++ behind) ahead) := by
  have run := Bytes.runLength_append (· != Byte.lineFeed) held.reverse behind
  have short := Bytes.runLength_le (· != Byte.lineFeed) behind
  simp only [List.length_reverse] at run
  rw [moveMark, if_neg (not_behindMark_holding behind held ahead), take_pendingLength_holding]
  simp only [holding, between, List.length_append, List.length_reverse, List.length_nil,
    List.reverse_nil, List.nil_append, List.count_append, UInt32.ofNat_add, run,
    Except.ok.injEq, Cursor.mk.injEq, true_and]
  refine ⟨by omega, by omega, by omega, ?_, ?_⟩
  · rw [UInt32.add_assoc, UInt32.add_comm (UInt32.ofNat _)]
  · split <;> omega

end PageScript.Cursor
