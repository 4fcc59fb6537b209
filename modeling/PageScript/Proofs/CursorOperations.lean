import PageScript.Proofs.PlacedCursors

/-!
# The operations of a cursor

An operation reads on, undoes the last reading, moves the mark, or only looks.  What it does
to the three numbers of a placed cursor depends on nothing else, and an operation is refused
exactly if it asks for the pending text while the cursor is behind its mark.
-/

namespace PageScript.Cursor

/-- What can be asked of a cursor. -/
inductive Operation where
  | next
  | backup
  | peek
  | ignore
  | accept (set : List Char)
  | acceptRun (set : List Char)
  | acceptWhile (accepts : Char → Bool)
  | advance (count : Nat)
  | remaining
  | pending
  | takeSpan (file : FileId)

/-- What an operation answers. -/
inductive Answer where
  | nothing
  | char (char? : Option Char)
  | taken (taken : Bool)
  | bytes (bytes : Bytes)
  | span (span : Span)

namespace Operation

/-- Carry out an operation. -/
def perform : Operation → Cursor → Except Fault (Answer × Cursor)
  | .next, cursor => .ok (.char cursor.next.1, cursor.next.2)
  | .backup, cursor => .ok (.nothing, cursor.backup)
  | .peek, cursor => .ok (.char cursor.peek, cursor)
  | .ignore, cursor => cursor.ignore.map fun after => (.nothing, after)
  | .accept set, cursor =>
      .ok (.taken (cursor.accept (set.contains ·)).1, (cursor.accept (set.contains ·)).2)
  | .acceptRun set, cursor => .ok (.nothing, cursor.acceptWhile (set.contains ·))
  | .acceptWhile accepts, cursor => .ok (.nothing, cursor.acceptWhile accepts)
  | .advance count, cursor => .ok (.nothing, cursor.advance count)
  | .remaining, cursor => .ok (.bytes cursor.ahead, cursor)
  | .pending, cursor => cursor.pending.map fun bytes => (.bytes bytes, cursor)
  | .takeSpan file, cursor => (cursor.takeSpan file).map fun (span, after) => (.span span, after)

/-- An offset and a count have a sum that is a word. -/
def Fits : Operation → Cursor → Prop
  | .advance count, cursor => cursor.offset + count < UInt64.size
  | _, _ => True

/-- Whether the pending text is asked for. -/
def needsPending : Operation → Bool
  | .ignore | .pending | .takeSpan _ => true
  | _ => false

/-- What an operation is for. -/
inductive Role where
  | reads
  | undoes
  | marks
  | looks
  deriving DecidableEq

/-- Reading by bytes counts as reading. -/
def role : Operation → Role
  | .next | .accept _ | .acceptRun _ | .acceptWhile _ | .advance _ => .reads
  | .backup => .undoes
  | .ignore | .takeSpan _ => .marks
  | .peek | .remaining | .pending => .looks

theorem eq_backup_of_role {operation : Operation} (undoes : operation.role = .undoes) :
    operation = .backup := by
  cases operation <;> first | rfl | contradiction

/-- What becomes of the mark, the offset and the width. -/
def Role.Effect (before after : Cursor) : Role → Prop
  | .reads => after.start = before.start ∧ before.offset + after.width ≤ after.offset
  | .undoes =>
      after.start = before.start ∧ after.offset = before.offset - before.width ∧ after.width = 0
  | .marks =>
      before.start ≤ before.offset ∧ after.start = before.offset ∧ after.offset = before.offset
  | .looks => after = before

end Operation

/-- A cursor that is placed where the page allows it. -/
inductive IsPlaced (page : Bytes) : Cursor → Prop where
  | intro {start offset width : Nat} :
      start ≤ page.length → offset ≤ page.length → width ≤ offset →
      IsPlaced page (placed page start offset width)

theorem ofBytes_isPlaced (page : Bytes) : IsPlaced page (ofBytes page) := by
  rw [ofBytes_eq_placed]
  exact .intro (Nat.zero_le _) (Nat.zero_le _) (Nat.le_refl _)

variable {page : Bytes} {operation : Operation} {cursor after : Cursor} {answer : Answer}
  {fault : Fault}

/-- An operation is refused exactly if it asks for the pending text behind the mark. -/
theorem perform_eq_error_iff (isPlaced : IsPlaced page cursor) :
    operation.perform cursor = .error fault ↔
      operation.needsPending ∧ cursor.offset < cursor.start ∧ fault = .behindMark := by
  cases isPlaced with
  | @intro start offset width _ fits _ =>
      have place : (placed page start offset width).offset = offset ∧
          (placed page start offset width).start = start := ⟨rfl, rfl⟩
      rw [place.1, place.2]
      cases operation with
      | ignore =>
          rw [Operation.perform, ignore, moveMark_placed fits]
          split <;> simp [Except.map, Operation.needsPending, *, eq_comm]
      | pending =>
          rw [Operation.perform, pending_placed fits]
          split <;> simp [Except.map, Operation.needsPending, *, eq_comm]
      | takeSpan file =>
          rw [Operation.perform, takeSpan_placed file fits]
          split <;> simp [Except.map, Operation.needsPending, *, eq_comm]
      | _ => simp [Operation.perform, Operation.needsPending]

/-- A reading leaves the mark, and its width is no more than what it moved over. -/
theorem reads_placed {start offset width reached size : Nat} (marked : start ≤ page.length)
    (inside : reached ≤ page.length) (onward : offset + size ≤ reached) :
    Operation.Role.Effect (placed page start offset width) (placed page start reached size) .reads ∧
      IsPlaced page (placed page start reached size) :=
  ⟨⟨rfl, onward⟩, .intro marked inside (Nat.le_trans (Nat.le_add_left _ _) onward)⟩

/-- What an operation does, and that it leads to a placed cursor. -/
theorem perform_effect (isPlaced : IsPlaced page cursor) (fits : operation.Fits cursor)
    (done : operation.perform cursor = .ok (answer, after)) :
    operation.role.Effect cursor after ∧ IsPlaced page after := by
  cases isPlaced with
  | @intro start offset width marked inside narrow =>
      cases operation with
      | next =>
          cases done
          cases read : Utf8.next? (page.drop offset) with
          | none =>
              rw [next_standing_of_none read]
              exact reads_placed marked inside (Nat.le_refl _)
          | some pair =>
              rw [next_standing_of_some read]
              exact reads_placed marked (add_size_le_of_next? read) (Nat.le_refl _)
      | backup =>
          cases done
          rw [backup_standing inside]
          exact ⟨⟨rfl, rfl, rfl⟩, .intro marked (Nat.le_trans (Nat.sub_le _ _) inside)
            (Nat.zero_le _)⟩
      | accept set =>
          cases done
          rw [accept_standing inside]
          cases read : Utf8.next? (page.drop offset) with
          | none => exact reads_placed marked inside (Nat.le_refl _)
          | some pair =>
              simp only
              split
              · exact reads_placed marked (add_size_le_of_next? read) (Nat.le_refl _)
              · exact reads_placed marked inside (Nat.le_refl _)
      | acceptRun set =>
          cases done
          rw [acceptWhile_standing inside]
          exact reads_placed marked (add_charRun_le _ inside) (Nat.le_add_right _ _)
      | acceptWhile accepts =>
          cases done
          rw [acceptWhile_standing inside]
          exact reads_placed marked (add_charRun_le accepts inside) (Nat.le_add_right _ _)
      | advance count =>
          cases done
          rw [advance_standing inside fits]
          exact reads_placed marked (Nat.min_le_right _ _)
            (Nat.le_min.mpr ⟨Nat.le_add_right _ _, inside⟩)
      | peek =>
          cases done
          exact ⟨rfl, .intro marked inside narrow⟩
      | remaining =>
          cases done
          exact ⟨rfl, .intro marked inside narrow⟩
      | pending =>
          rw [Operation.perform, pending_placed inside] at done
          split at done
          · contradiction
          · cases done
            exact ⟨rfl, .intro marked inside narrow⟩
      | ignore =>
          rw [Operation.perform, ignore, moveMark_placed inside] at done
          split at done
          · contradiction
          · next ordered =>
              cases done
              exact ⟨⟨Nat.not_lt.mp ordered, rfl, rfl⟩, .intro inside inside narrow⟩
      | takeSpan file =>
          rw [Operation.perform, takeSpan_placed file inside] at done
          split at done
          · contradiction
          · next ordered =>
              cases done
              exact ⟨⟨Nat.not_lt.mp ordered, rfl, rfl⟩, .intro inside inside narrow⟩

end PageScript.Cursor
