import PageScript.Span
import PageScript.Utf8

/-!
# Cursors

A cursor is a place in a page: the bytes behind it, nearest first, and the bytes
ahead of it.  It also marks where the pending text begins, counts the lines before
that mark, and remembers the width of the last character read so that one reading
can be undone.

The mark moves only when the pending text is ignored or taken as a span.  Neither
forgets the remembered width, so undoing a reading right afterwards leaves the
cursor behind its mark.  Until it catches up there is no pending text, and the
operations that need one report `Fault.behindMark`.
-/

namespace PageScript

/-- Why a scan cannot go on. -/
inductive Fault where
  /-- The pending text was asked for while the cursor stood behind its mark. -/
  | behindMark
  /-- A grammar gave up. -/
  | raised
  deriving DecidableEq

/-- A place in a page, with the mark where the pending text begins. -/
structure Cursor where
  /-- The bytes before the cursor, nearest first. -/
  behind : Bytes
  /-- The bytes from the cursor on. -/
  ahead : Bytes
  /-- Number of bytes of the page. -/
  size : Nat
  /-- Offset of the mark. -/
  start : Nat
  /-- Offset of the cursor. -/
  offset : Nat
  /-- Bytes of the last reading, if it can be undone. -/
  width : Nat
  /-- Line of the mark. -/
  line : UInt32
  /-- Offset at which the line of the mark begins. -/
  lineStart : Nat
  deriving DecidableEq

namespace Cursor

/-- The cursor before the first byte of a page. -/
def ofBytes (bytes : Bytes) : Cursor where
  behind := []
  ahead := bytes
  size := bytes.length
  start := 0
  offset := 0
  width := 0
  line := 1
  lineStart := 0

/-- The page that the cursor stands in. -/
def source (cursor : Cursor) : Bytes :=
  cursor.behind.reverse ++ cursor.ahead

/-- Number of bytes from the cursor on. -/
def left (cursor : Cursor) : Nat :=
  cursor.size - cursor.offset

/-- Move over `count` bytes, or to the end of the page if fewer are left. -/
def forward (cursor : Cursor) (count : Nat) : Cursor :=
  { cursor with
    behind := (cursor.ahead.take count).reverseAux cursor.behind
    ahead := cursor.ahead.drop count
    offset := cursor.offset + min count cursor.left }

/-- Move back over `count` bytes. -/
def backward (cursor : Cursor) (count : Nat) : Cursor :=
  { cursor with
    behind := cursor.behind.drop count
    ahead := (cursor.behind.take count).reverseAux cursor.ahead
    offset := cursor.offset - count }

/-- Read one character. -/
def next (cursor : Cursor) : Option Char × Cursor :=
  match Utf8.next? cursor.ahead with
  | none => (none, { cursor with width := 0 })
  | some (char, size) => (some char, { cursor.forward size with width := size })

/-- Undo the last reading.  A second undoing changes nothing. -/
def backup (cursor : Cursor) : Cursor :=
  { cursor.backward cursor.width with width := 0 }

/-- The next character, without reading it. -/
def peek (cursor : Cursor) : Option Char :=
  (Utf8.next? cursor.ahead).map (·.1)

/-- Read the next character if it satisfies `accepts`, and say whether it did. -/
def accept (cursor : Cursor) (accepts : Char → Bool) : Bool × Cursor :=
  match cursor.next with
  | (some char, after) => if accepts char then (true, after) else (false, after.backup)
  | (none, after) => (false, after.backup)

/-- Number of bytes of the longest run of characters at the front that satisfy
`accepts`. -/
def charRun (accepts : Char → Bool) (bytes : Bytes) : Nat :=
  match _read : Utf8.next? bytes with
  | none => 0
  | some (char, size) =>
      if accepts char then size + charRun accepts (bytes.drop size) else 0
  termination_by bytes.length
  decreasing_by
    have positive := Utf8.size_pos_of_next? _read
    cases bytes with
    | nil => simp [Utf8.next?] at _read
    | cons byte rest =>
        rw [List.length_drop]
        exact Nat.sub_lt (Nat.succ_pos _) positive

/-- Read characters for as long as they satisfy `accepts`. -/
def acceptWhile (cursor : Cursor) (accepts : Char → Bool) : Cursor :=
  { cursor.forward (charRun accepts cursor.ahead) with width := 0 }

/-- Move over bytes that a look ahead has found. -/
def skip (cursor : Cursor) (count : Nat) : Cursor :=
  { cursor.forward count with width := 0 }

/-- Move to an offset, or to the end of the page if it is shorter. -/
def seek (cursor : Cursor) (offset : Nat) : Cursor :=
  if cursor.offset ≤ offset then
    cursor.skip (offset - cursor.offset)
  else
    { cursor.backward (cursor.offset - offset) with width := 0 }

/-- Move over any number of bytes without decoding them.  The new offset is a 64-bit
word, so a count that takes it past the last word leads back to the front. -/
def advance (cursor : Cursor) (count : Nat) : Cursor :=
  cursor.seek ((cursor.offset + count) % UInt64.size)

/-- Whether no byte is left. -/
def atEnd (cursor : Cursor) : Bool :=
  cursor.ahead.isEmpty

/-- Number of bytes between the mark and the cursor. -/
def pendingLength (cursor : Cursor) : Nat :=
  cursor.offset - cursor.start

/-- The bytes between the mark and the cursor. -/
def pending (cursor : Cursor) : Except Fault Bytes :=
  if cursor.offset < cursor.start then
    .error .behindMark
  else
    .ok ((cursor.behind.take cursor.pendingLength).reverse)

/-- Column of the mark: its distance in bytes from the beginning of its line,
counted from one. -/
def column (cursor : Cursor) : UInt32 :=
  UInt32.ofNat (cursor.start - cursor.lineStart + 1)

/-- Move the mark to the cursor, counting the lines passed over. -/
def moveMark (cursor : Cursor) : Except Fault Cursor :=
  if cursor.offset < cursor.start then
    .error .behindMark
  else
    let passed := cursor.behind.take cursor.pendingLength
    let sinceBreak := Bytes.runLength (· != Byte.lineFeed) passed
    .ok { cursor with
      start := cursor.offset
      line := cursor.line + UInt32.ofNat (passed.count Byte.lineFeed)
      lineStart :=
        if sinceBreak = passed.length then cursor.lineStart else cursor.offset - sinceBreak }

/-- Drop the pending text. -/
def ignore (cursor : Cursor) : Except Fault Cursor :=
  cursor.moveMark

/-- The span of the pending text.  The mark moves up to the cursor. -/
def takeSpan (cursor : Cursor) (file : FileId) : Except Fault (Span × Cursor) :=
  match cursor.moveMark with
  | .error fault => .error fault
  | .ok after => .ok (⟨cursor.start, cursor.offset, cursor.line, cursor.column, file⟩, after)

end Cursor

end PageScript
