import PageScript.Proofs.CursorOperations
import PageScript.Proofs.NameRuns

/-!
# Checked offsets

A cursor can be kept as numbers beside its page.  `Offsets.perform?` carries out an operation
on the numbers and takes nothing for granted: it is refused every range that does not lie in
the page, every sum that is no word, every difference below zero, and a line number past the
last word.

On the numbers of a placed cursor it does what the operation does, and is refused exactly
where the operation is.  So no refusal is hidden in the bytes on either side of a cursor.
-/

namespace PageScript.Cursor

/-- A cursor without the bytes of its page. -/
structure Offsets where
  start : Nat
  offset : Nat
  width : Nat
  line : UInt32
  lineStart : Nat

/-- The numbers of a cursor. -/
def offsets (cursor : Cursor) : Offsets where
  start := cursor.start
  offset := cursor.offset
  width := cursor.width
  line := cursor.line
  lineStart := cursor.lineStart

namespace Offsets

/-- A sum of words that is a word. -/
def sum? (left right : Nat) : Option Nat :=
  if left + right < UInt64.size then some (left + right) else none

/-- A difference of words that is a word. -/
def difference? (left right : Nat) : Option Nat :=
  if right ≤ left then some (left - right) else none

/-- The number of the next line, which takes half a word. -/
def nextLine? (line : UInt32) : Option UInt32 :=
  if line.toNat + 1 < UInt32.size then some (line + 1) else none

/-- Read one character. -/
def next? (page : Bytes) (place : Offsets) : Option (Option Char × Offsets) := do
  let ahead ← page.slice? place.offset page.length
  match Utf8.next? ahead with
  | none => return (none, { place with width := 0 })
  | some (char, width) =>
      return (some char, { place with offset := ← sum? place.offset width, width })

/-- Undo the last reading. -/
def backup? (place : Offsets) : Option Offsets :=
  return { place with offset := ← difference? place.offset place.width, width := 0 }

/-- The next character, without reading it. -/
def peek? (page : Bytes) (place : Offsets) : Option (Option Char) :=
  return (Utf8.next? (← page.slice? place.offset page.length)).map (·.1)

/-- Read the next character if it satisfies `accepts`. -/
def accept? (page : Bytes) (accepts : Char → Bool) (place : Offsets) :
    Option (Bool × Offsets) := do
  let (char?, after) ← place.next? page
  if char?.any accepts then return (true, after) else return (false, ← after.backup?)

/-- A character that is read is taken from the rest of the page. -/
theorem sub_lt_of_next? {page : Bytes} {place after : Offsets} {char : Char}
    (read : place.next? page = some (some char, after)) :
    page.length - after.offset < page.length - place.offset := by
  obtain ⟨ahead, sliced, answer⟩ := Option.bind_eq_some_iff.mp read
  obtain ⟨⟨inside, -⟩, same⟩ := Option.ite_none_right_eq_some.mp sliced
  cases same
  rw [List.take_length] at answer
  cases found : Utf8.next? (page.drop place.offset) with
  | none => simp [found] at answer
  | some pair =>
      simp only [found] at answer
      obtain ⟨offset, summed, same⟩ := Option.bind_eq_some_iff.mp answer
      obtain ⟨-, sum⟩ := Option.ite_none_right_eq_some.mp summed
      cases same
      cases sum
      have bounds := Utf8.size_bounds_of_next? found
      rw [List.length_drop] at bounds
      simp only
      omega

/-- Read characters up to and with the first one that is refused, or to the end. -/
def readWhile? (page : Bytes) (accepts : Char → Bool) (place : Offsets) : Option Offsets :=
  match _read : place.next? page with
  | none => none
  | some (char?, after) =>
      if _goesOn : char?.any accepts then readWhile? page accepts after else some after
  termination_by page.length - place.offset
  decreasing_by
    cases char? with
    | none => contradiction
    | some char => exact sub_lt_of_next? _read

/-- Read characters for as long as they satisfy `accepts`. -/
def acceptWhile? (page : Bytes) (accepts : Char → Bool) (place : Offsets) : Option Offsets := do
  (← readWhile? page accepts place).backup?

/-- Move over a number of bytes, or to the end of the page. -/
def advance? (page : Bytes) (count : Nat) (place : Offsets) : Option Offsets :=
  return { place with offset := min (← sum? place.offset count) page.length, width := 0 }

/-- Count the lines of bytes that begin at an offset. -/
def countLines? : Bytes → Nat → UInt32 → Nat → Option (UInt32 × Nat)
  | [], _, line, lineStart => some (line, lineStart)
  | byte :: rest, offset, line, lineStart =>
      if byte = Byte.lineFeed then do
        countLines? rest (offset + 1) (← nextLine? line) (← sum? offset 1)
      else
        countLines? rest (offset + 1) line lineStart

/-- Move the mark to the cursor, counting the lines passed over. -/
def moveMark? (page : Bytes) (place : Offsets) : Option Offsets := do
  let passed ← page.slice? place.start place.offset
  let (line, lineStart) ← countLines? passed place.start place.line place.lineStart
  return { place with start := place.offset, line, lineStart }

/-- Column of the mark. -/
def column? (place : Offsets) : Option UInt32 := do
  return UInt32.ofNat (← sum? (← difference? place.start place.lineStart) 1)

/-- The span of the pending text. -/
def takeSpan? (page : Bytes) (file : FileId) (place : Offsets) : Option (Span × Offsets) := do
  let span : Span := ⟨place.start, place.offset, place.line, ← place.column?, file⟩
  return (span, ← place.moveMark? page)

/-- Carry out an operation on numbers. -/
def perform? (page : Bytes) : Operation → Offsets → Option (Answer × Offsets)
  | .next, place => (place.next? page).map fun (char?, after) => (.char char?, after)
  | .backup, place => place.backup?.map fun after => (.nothing, after)
  | .peek, place => (place.peek? page).map fun char? => (.char char?, place)
  | .ignore, place => (place.moveMark? page).map fun after => (.nothing, after)
  | .accept set, place =>
      (place.accept? page (set.contains ·)).map fun (taken, after) => (.taken taken, after)
  | .acceptRun set, place =>
      (place.acceptWhile? page (set.contains ·)).map fun after => (.nothing, after)
  | .acceptWhile accepts, place =>
      (place.acceptWhile? page accepts).map fun after => (.nothing, after)
  | .advance count, place => (place.advance? page count).map fun after => (.nothing, after)
  | .remaining, place =>
      (page.slice? place.offset page.length).map fun ahead => (.bytes ahead, place)
  | .pending, place => (page.slice? place.start place.offset).map fun held => (.bytes held, place)
  | .takeSpan file, place =>
      (place.takeSpan? page file).map fun (span, after) => (.span span, after)

end Offsets

variable {page : Bytes} {cursor marked : Cursor} {start offset width : Nat}

theorem sum?_of_lt {left right : Nat} (word : left + right < UInt64.size) :
    Offsets.sum? left right = some (left + right) :=
  if_pos word

theorem difference?_of_le {left right : Nat} (ordered : right ≤ left) :
    Offsets.difference? left right = some (left - right) :=
  if_pos ordered

/-! ### Reading -/

theorem next?_standing (marked : Cursor) (width : Nat) (word : page.length < UInt64.size)
    (fits : offset ≤ page.length) :
    let cursor := marked.standing page offset width
    cursor.offsets.next? page = some (cursor.next.1, cursor.next.2.offsets) := by
  intro cursor
  have sliced : page.slice? cursor.offsets.offset page.length = some (page.drop offset) :=
    Bytes.slice?_length fits
  rw [Offsets.next?, sliced]
  cases read : Utf8.next? (page.drop offset) with
  | none =>
      rw [next_standing_of_none read]
      simp only [Option.bind_some, bind, read]
      rfl
  | some pair =>
      have inside := add_size_le_of_next? read
      have summed : Offsets.sum? cursor.offsets.offset pair.2 = some (offset + pair.2) :=
        sum?_of_lt (Nat.lt_of_le_of_lt inside word)
      rw [next_standing_of_some read]
      simp only [Option.bind_some, bind, read, summed]
      rfl

theorem backup?_standing (marked : Cursor) (fits : offset ≤ page.length)
    (narrow : width ≤ offset) :
    let cursor := marked.standing page offset width
    cursor.offsets.backup? = some cursor.backup.offsets := by
  intro cursor
  have difference : Offsets.difference? cursor.offsets.offset cursor.offsets.width =
      some (offset - width) := difference?_of_le narrow
  rw [Offsets.backup?, difference, backup_standing fits]
  rfl

theorem peek?_standing (fits : offset ≤ page.length) :
    let cursor := marked.standing page offset width
    cursor.offsets.peek? page = some cursor.peek := by
  intro cursor
  have sliced : page.slice? cursor.offsets.offset page.length = some (page.drop offset) :=
    Bytes.slice?_length fits
  rw [Offsets.peek?, sliced]
  rfl

theorem accept?_standing (accepts : Char → Bool) (word : page.length < UInt64.size)
    (fits : offset ≤ page.length) :
    let cursor := marked.standing page offset width
    cursor.offsets.accept? page accepts =
      some ((cursor.accept accepts).1, (cursor.accept accepts).2.offsets) := by
  intro cursor
  rw [Offsets.accept?, next?_standing marked width word fits, accept_standing fits]
  cases read : Utf8.next? (page.drop offset) with
  | none =>
      rw [next_standing_of_none read]
      have undone := backup?_standing marked fits (Nat.zero_le _)
      simp only [Option.bind_some, bind, Option.any_none, undone, backup_standing fits]
      rfl
  | some pair =>
      have inside := add_size_le_of_next? read
      have undone := backup?_standing marked inside (Nat.le_add_left pair.2 offset)
      rw [next_standing_of_some read]
      simp only [Option.bind_some, bind, Option.any_some, undone, backup_standing inside,
        Nat.add_sub_cancel]
      split <;> rfl

theorem readWhile?_of_next? {place after : Offsets} {char? : Option Char}
    (accepts : Char → Bool) (read : place.next? page = some (char?, after)) :
    place.readWhile? page accepts =
      if char?.any accepts then after.readWhile? page accepts else some after := by
  rw [Offsets.readWhile?.eq_def]
  split
  · next refused => simp [read] at refused
  · next found =>
      cases found.symm.trans read
      rfl

/-- The loop ends where the loop on the cursor does. -/
theorem readWhile?_standing (accepts : Char → Bool) (word : page.length < UInt64.size)
    (fits : offset ≤ page.length) :
    let cursor := marked.standing page offset width
    cursor.offsets.readWhile? page accepts = some (cursor.readWhile accepts).offsets := by
  intro cursor
  have read := next?_standing marked width word fits
  rw [readWhile?_of_next? accepts read]
  generalize left : page.drop offset = bytes at *
  fun_induction Cursor.charRun accepts bytes generalizing offset width with
  | case1 bytes ended =>
      subst left
      have last : (marked.standing page offset width).next = _ := next_standing_of_none ended
      rw [readWhile_of_next accepts last, last]
      rfl
  | case2 bytes char size found accepted ih =>
      subst left
      have inside := add_size_le_of_next? found
      have first : (marked.standing page offset width).next = _ := next_standing_of_some found
      have onward := next?_standing marked size word inside
      rw [readWhile_of_next accepts first, first, Option.any_some, if_pos accepted, if_pos accepted,
        readWhile?_of_next? accepts onward]
      exact ih inside onward List.drop_drop.symm
  | case3 bytes char size found refused =>
      subst left
      have first : (marked.standing page offset width).next = _ := next_standing_of_some found
      rw [readWhile_of_next accepts first, first, Option.any_some, if_neg refused, if_neg refused]

theorem acceptWhile?_standing (accepts : Char → Bool) (word : page.length < UInt64.size)
    (fits : offset ≤ page.length) :
    let cursor := marked.standing page offset width
    cursor.offsets.acceptWhile? page accepts = some (cursor.acceptWhile accepts).offsets := by
  intro cursor
  obtain ⟨reached, size, last, -, inside⟩ :=
    exists_readWhile_standing marked accepts width fits
  have undone := backup?_standing marked inside (Nat.le_add_left size reached)
  rw [Offsets.acceptWhile?, readWhile?_standing accepts word fits,
    ← backup_readWhile (standing_standsIn fits) accepts, last]
  exact undone

theorem advance?_standing {count : Nat} (fits : offset ≤ page.length)
    (word : offset + count < UInt64.size) :
    let cursor := marked.standing page offset width
    cursor.offsets.advance? page count = some (cursor.advance count).offsets := by
  intro cursor
  have summed : Offsets.sum? cursor.offsets.offset count = some (offset + count) :=
    sum?_of_lt word
  rw [Offsets.advance?, summed, advance_standing fits word]
  rfl

/-! ### The mark -/

/-- The line behind some bytes, and where it begins. -/
def lineBehind (front : Bytes) : UInt32 × Nat :=
  (1 + UInt32.ofNat (front.count Byte.lineFeed), front.length - Bytes.sinceBreak front.reverse)

theorem nextLine?_lineBehind (front : Bytes) (short : front.length + 2 < UInt32.size) :
    Offsets.nextLine? (lineBehind front).1 =
      some (lineBehind (front ++ [Byte.lineFeed])).1 := by
  have few : front.count Byte.lineFeed ≤ front.length := List.count_le_length
  have number : (lineBehind front).1.toNat = 1 + front.count Byte.lineFeed := by
    have counted : (UInt32.ofNat (front.count Byte.lineFeed)).toNat = front.count Byte.lineFeed :=
      UInt32.toNat_ofNat_of_lt' (Nat.lt_of_le_of_lt few (by omega))
    have one : (1 : UInt32).toNat = 1 := rfl
    have word : 1 + front.count Byte.lineFeed < UInt32.size := by omega
    rw [lineBehind, UInt32.toNat_add, counted, one]
    exact Nat.mod_eq_of_lt word
  have fits : (lineBehind front).1.toNat + 1 < UInt32.size := by omega
  have more : (lineBehind (front ++ [Byte.lineFeed])).1 = (lineBehind front).1 + 1 := by
    simp [lineBehind, UInt32.ofNat_add, UInt32.add_assoc]
  rw [more]
  exact if_pos fits

theorem lineBehind_lineFeed (front : Bytes) :
    (lineBehind (front ++ [Byte.lineFeed])).2 = front.length + 1 := by
  simp [lineBehind, Bytes.runLength]

theorem lineBehind_of_ne {byte : UInt8} (front : Bytes) (other : byte ≠ Byte.lineFeed) :
    lineBehind (front ++ [byte]) = lineBehind front := by
  have plain : Byte.lineFeed ∉ [byte] := by simpa using other.symm
  have count : (front ++ [byte]).count Byte.lineFeed = front.count Byte.lineFeed := by
    simp [other]
  rw [lineBehind, count, List.reverse_append, Bytes.sinceBreak_append plain, List.length_append,
    List.length_singleton, Nat.add_comm 1, Nat.add_sub_add_right, lineBehind]

/-- Counting goes on behind the bytes that were counted. -/
theorem countLines?_lineBehind (front held : Bytes)
    (short : front.length + held.length + 1 < UInt32.size) :
    Offsets.countLines? held front.length (lineBehind front).1 (lineBehind front).2 =
      some (lineBehind (front ++ held)) := by
  have words : UInt32.size < UInt64.size := by decide
  induction held generalizing front with
  | nil => rw [List.append_nil]; rfl
  | cons byte rest ih =>
      rw [List.length_cons] at short
      have onward := ih (front ++ [byte]) (by
        rw [List.length_append, List.length_singleton]
        omega)
      rw [List.append_assoc, List.singleton_append, List.length_append,
        List.length_singleton] at onward
      rw [Offsets.countLines?]
      split
      · next feed =>
          subst feed
          have begins : Offsets.sum? front.length 1 =
              some (lineBehind (front ++ [Byte.lineFeed])).2 := by
            rw [lineBehind_lineFeed]
            exact sum?_of_lt (by omega)
          rw [nextLine?_lineBehind front (by omega), begins]
          exact onward
      · next other =>
          rw [lineBehind_of_ne front other] at onward
          exact onward

theorem offsets_placed (offset width : Nat) (marked : start ≤ page.length) :
    (placed page start offset width).offsets =
      ⟨start, offset, width, (lineBehind (page.take start)).1,
        (lineBehind (page.take start)).2⟩ := by
  rw [lineBehind, List.length_take_of_le marked]
  rfl

/-- The mark moves up to the cursor, and no line number on the way is too large. -/
theorem moveMark?_placed (fits : offset ≤ page.length) (ordered : start ≤ offset)
    (short : page.length + 1 < UInt32.size) :
    (placed page start offset width).offsets.moveMark? page =
      some (placed page offset offset width).offsets := by
  have marked := Nat.le_trans ordered fits
  have front : (page.take start).length = start := List.length_take_of_le marked
  have held : ((page.take offset).drop start).length = offset - start := by
    rw [List.length_drop, List.length_take_of_le fits]
  have counted := countLines?_lineBehind (page.take start) ((page.take offset).drop start)
    (by omega)
  rw [take_append_held ordered, front] at counted
  rw [offsets_placed offset width marked, offsets_placed offset width fits, Offsets.moveMark?,
    Bytes.slice?_of_le ordered fits]
  simp only [bind, Option.bind_some, counted]
  rfl

theorem takeSpan?_placed (file : FileId) (fits : offset ≤ page.length) (ordered : start ≤ offset)
    (short : page.length + 1 < UInt32.size) :
    let cursor := placed page start offset width
    cursor.offsets.takeSpan? page file =
      some (⟨start, offset, cursor.line, cursor.column, file⟩,
        (placed page offset offset width).offsets) := by
  intro cursor
  have words : UInt32.size < UInt64.size := by decide
  have difference : Offsets.difference? cursor.offsets.start cursor.offsets.lineStart =
      some (cursor.start - cursor.lineStart) := difference?_of_le (Nat.sub_le _ _)
  have sum : Offsets.sum? (cursor.start - cursor.lineStart) 1 =
      some (cursor.start - cursor.lineStart + 1) := by
    have inside : cursor.start - cursor.lineStart ≤ start := Nat.sub_le _ _
    exact sum?_of_lt (by omega)
  rw [Offsets.takeSpan?, Offsets.column?, difference, moveMark?_placed fits ordered short]
  simp only [bind, Option.bind_some, sum]
  rfl

/-! ### Refusals -/

theorem slice?_of_behind (behind : offset < start) : page.slice? start offset = none :=
  if_neg fun ordered => absurd ordered.1 (Nat.not_le.mpr behind)

theorem moveMark?_of_behind (behind : offset < start) :
    (placed page start offset width).offsets.moveMark? page = none :=
  Option.bind_eq_none_iff.mpr fun _ sliced =>
    nomatch sliced.symm.trans (slice?_of_behind behind)

theorem takeSpan?_of_behind (file : FileId) (behind : offset < start) :
    (placed page start offset width).offsets.takeSpan? page file = none := by
  rw [Offsets.takeSpan?, moveMark?_of_behind behind]
  cases (placed page start offset width).offsets.column? <;> rfl

/-- A checked operation does what the operation does, and is refused where it is. -/
theorem perform?_offsets {operation : Operation} {cursor : Cursor}
    (isPlaced : IsPlaced page cursor) (fits : operation.Fits cursor)
    (short : page.length + 1 < UInt32.size) :
    cursor.offsets.perform? page operation =
      (operation.perform cursor).toOption.map fun (answer, after) => (answer, after.offsets) := by
  have words : UInt32.size < UInt64.size := by decide
  have word : page.length < UInt64.size := by omega
  cases isPlaced with
  | @intro start offset width marked inside narrow =>
      cases operation with
      | next => rw [Offsets.perform?, next?_standing _ _ word inside]; rfl
      | backup => rw [Offsets.perform?, backup?_standing _ inside narrow]; rfl
      | peek => rw [Offsets.perform?, peek?_standing inside]; rfl
      | accept set => rw [Offsets.perform?, accept?_standing _ word inside]; rfl
      | acceptRun set => rw [Offsets.perform?, acceptWhile?_standing _ word inside]; rfl
      | acceptWhile accepts => rw [Offsets.perform?, acceptWhile?_standing _ word inside]; rfl
      | advance count => rw [Offsets.perform?, advance?_standing inside fits]; rfl
      | remaining =>
          have sliced := Bytes.slice?_length inside
          exact congrArg (Option.map _) sliced
      | pending =>
          rw [Operation.perform, pending_placed inside]
          split
          · next behind => exact congrArg (Option.map _) (slice?_of_behind behind)
          · next ordered =>
              exact congrArg (Option.map _) (Bytes.slice?_of_le (Nat.not_lt.mp ordered) inside)
      | ignore =>
          rw [Operation.perform, ignore, moveMark_placed inside]
          split
          · next behind => exact congrArg (Option.map _) (moveMark?_of_behind behind)
          · next ordered =>
              exact congrArg (Option.map _)
                (moveMark?_placed inside (Nat.not_lt.mp ordered) short)
      | takeSpan file =>
          rw [Operation.perform, takeSpan_placed file inside]
          split
          · next behind => exact congrArg (Option.map _) (takeSpan?_of_behind file behind)
          · next ordered =>
              exact congrArg (Option.map _)
                (takeSpan?_placed file inside (Nat.not_lt.mp ordered) short)

end PageScript.Cursor
