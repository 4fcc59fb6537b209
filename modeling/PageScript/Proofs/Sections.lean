import PageScript.Mode
import PageScript.Proofs.NameRuns

/-!
# Sections of a scan

`Mode` keeps the enclosure of a string inside of the mode itself, so that a mode says all
there is to know about what comes next.  A scan can also keep it aside.  Then a section is
only text, script or body, every section works on the cursor with its operations, and the
enclosure is set and reset along the way.

`Section.grammar` is that state machine.  What the sections leave in the enclosure, and that
they do the work of the modes, is proved about it and not built into it.
-/

namespace PageScript

/-- What a scan works on next. -/
inductive Section where
  | text
  | script
  | body
  deriving DecidableEq

/-- A scanner, with the enclosure that is kept aside. -/
structure Worker where
  scanner : Scanner
  enclosure : Option Enclosure

/-- Work on a scanner.  A fault breaks it off and leaves what was done before. -/
abbrev Work (Answer : Type) := EStateM Fault Worker Answer

namespace Worker

/-- The cursor of the scanner. -/
abbrev cursor (worker : Worker) : Cursor :=
  worker.scanner.cursor

/-- Change the place in the page. -/
def withCursor (worker : Worker) (cursor : Cursor) : Worker :=
  { worker with scanner := worker.scanner.withCursor cursor }

end Worker

namespace Cursor

theorem ahead_length_next_le (cursor : Cursor) :
    cursor.next.2.ahead.length ≤ cursor.ahead.length := by
  cases read : Utf8.next? cursor.ahead with
  | none => simp [next, read]
  | some pair => simp [next, read, forward]

theorem ahead_length_next_lt {cursor : Cursor} (left : cursor.ahead ≠ []) :
    cursor.next.2.ahead.length < cursor.ahead.length := by
  cases read : Utf8.next? cursor.ahead with
  | none => exact absurd (Utf8.eq_nil_of_next? read) left
  | some pair =>
      have shorter := Utf8.length_drop_lt_of_next? read
      simpa only [next, read, forward] using shorter

/-- Read up to and with the single quote that closes a string, and say whether it was there.
A backslash takes the next character with it. -/
def readQuoted (cursor : Cursor) : Bool × Cursor :=
  match _read : cursor.next with
  | (none, after) => (false, after)
  | (some char, after) =>
      if char = '\'' then (true, after)
      else if char = '\\' then after.next.2.readQuoted
      else after.readQuoted
  termination_by cursor.ahead.length
  decreasing_by
    · exact Nat.lt_of_le_of_lt after.ahead_length_next_le (ahead_length_lt_of_next _read)
    · exact ahead_length_lt_of_next _read

theorem readQuoted_of_none {cursor after : Cursor} (read : cursor.next = (none, after)) :
    cursor.readQuoted = (false, after) := by
  rw [readQuoted.eq_def]
  split
  · next ended =>
      cases ended.symm.trans read
      rfl
  · next found => cases found.symm.trans read

theorem readQuoted_of_some {cursor after : Cursor} {char : Char}
    (read : cursor.next = (some char, after)) :
    cursor.readQuoted =
      if char = '\'' then (true, after)
      else if char = '\\' then after.next.2.readQuoted
      else after.readQuoted := by
  rw [readQuoted.eq_def]
  split
  · next ended => cases ended.symm.trans read
  · next found =>
      cases found.symm.trans read
      rfl

end Cursor

namespace Work

/-! ### Operations -/

/-- The bytes left. -/
def remaining : Work Bytes :=
  fun worker => .ok worker.cursor.ahead worker

/-- The next character, without reading it. -/
def peek : Work (Option Char) :=
  fun worker => .ok worker.cursor.peek worker

/-- Read one character. -/
def next : Work (Option Char) :=
  fun worker => .ok worker.cursor.next.1 (worker.withCursor worker.cursor.next.2)

/-- Read one character, whichever it is. -/
def pass : Work Unit :=
  fun worker => .ok () (worker.withCursor worker.cursor.next.2)

/-- Read the next character if it is one of `chars`. -/
def accept (chars : List Char) : Work Bool :=
  fun worker =>
    let (taken, cursor) := worker.cursor.accept (chars.contains ·)
    .ok taken (worker.withCursor cursor)

/-- Read characters for as long as they satisfy `accepts`. -/
def acceptWhile (accepts : Char → Bool) : Work Unit :=
  fun worker => .ok () (worker.withCursor (worker.cursor.acceptWhile accepts))

/-- Read characters for as long as they are among `chars`. -/
def acceptRun (chars : List Char) : Work Unit :=
  acceptWhile (chars.contains ·)

/-- Move over bytes that a look ahead has found. -/
def skip (count : Nat) : Work Unit :=
  fun worker => .ok () (worker.withCursor (worker.cursor.skip count))

/-- Read through the closing single quote. -/
def readQuoted : Work Bool :=
  fun worker => .ok worker.cursor.readQuoted.1 (worker.withCursor worker.cursor.readQuoted.2)

/-- The pending text. -/
def pending : Work Bytes :=
  fun worker =>
    match worker.cursor.pending with
    | .ok held => .ok held worker
    | .error fault => .error fault worker

/-- Publish the pending text. -/
def emit (kind : Kind) : Work Unit :=
  fun worker =>
    match worker.scanner.emit kind with
    | .ok (_, scanner) => .ok () { worker with scanner }
    | .error fault => .error fault worker

/-- Publish the pending text unless it is empty. -/
def emitPending (kind : Kind) : Work Unit :=
  fun worker =>
    match worker.scanner.emitPending kind with
    | .ok (_, scanner) => .ok () { worker with scanner }
    | .error fault => .error fault worker

/-- Warn about a construct that begins at the mark. -/
def warn (construct : Unterminated) : Work Unit :=
  fun worker =>
    let warning := construct.warning worker.cursor.line worker.cursor.column
    .ok () { worker with scanner := worker.scanner.warn warning }

/-- What the scan is inside of. -/
def enclosure : Work (Option Enclosure) :=
  fun worker => .ok worker.enclosure worker

/-- Go into an enclosure, or out of it. -/
def enclose (enclosure : Option Enclosure) : Work Unit :=
  fun worker => .ok () { worker with enclosure }

/-! ### Text -/

/-- Text up to the first open tag, and the tag. -/
def text : Work (Option Section) := do
  let bytes ← remaining
  match Lexeme.firstTag? bytes 0 with
  | some (offset, tag) =>
      skip offset
      emitPending .inlineHtml
      skip tag.size
      emit tag.kind
      return some .script
  | none =>
      skip bytes.length
      emitPending .inlineHtml
      return none

/-! ### Script -/

/-- A close tag, with the line break right behind it. -/
def closeTag : Work (Option Section) := do
  skip 2
  skip (Bytes.lineBreakLength (← remaining))
  emit .closeTag
  return some .text

/-- A line comment. -/
def lineComment : Work (Option Section) := do
  skip (Lexeme.lineCommentLength (← remaining))
  emit .comment
  return some .script

/-- Read a block comment, up to the end of the page if it has no closer. -/
def readBlockComment : Work Unit := do
  let bytes ← remaining
  match Lexeme.blockCommentLength? bytes with
  | some size => skip size
  | none =>
      warn .comment
      skip bytes.length

/-- A block comment. -/
def blockComment : Work (Option Section) := do
  let kind := Lexeme.blockCommentKind (← remaining)
  readBlockComment
  emit kind
  return some .script

/-- Read a sigil and a name. -/
def readVariable : Work Unit := do
  pass
  acceptWhile Text.isNamePart

/-- A variable. -/
def sigiled : Work (Option Section) := do
  readVariable
  emit .variable
  return some .script

/-- A name or a keyword. -/
def name : Work (Option Section) := do
  acceptWhile Text.isNamePart
  emit (Kind.ofName (← pending))
  return some .script

/-- Decimal digits, and the underscore that may stand among them. -/
def decimalDigits : List Char :=
  ['0', '1', '2', '3', '4', '5', '6', '7', '8', '9', '_']

/-- The marker letters of the other radices, with the digits behind them. -/
def radices : List (Char × (UInt8 → Bool) × List Char) :=
  [('x', Byte.isHexDigit,
      decimalDigits ++ ['a', 'b', 'c', 'd', 'e', 'f', 'A', 'B', 'C', 'D', 'E', 'F']),
    ('b', Byte.isBinaryDigit, ['0', '1', '_']),
    ('o', Byte.isOctalDigit, ['0', '1', '2', '3', '4', '5', '6', '7', '_'])]

/-- The digits that follow a radix marker at the front, if one of them does. -/
def radixDigits? : Bytes → Option (List Char)
  | first :: letter :: digits =>
      if first = Byte.zero then
        (radices.find? fun radix =>
          Byte.toLower letter = Byte.ofChar radix.1 && Bytes.startsWhere radix.2.1 digits).map
          (·.2.2)
      else
        none
  | _ => none

/-- Length of the letter and the sign of an exponent, if a digit follows. -/
def exponentMarker? : Bytes → Option Nat
  | [] => none
  | letter :: rest =>
      let sign := Lexeme.signLength rest
      if Byte.toLower letter = Byte.ofChar 'e' && Bytes.startsWhere Byte.isDigit (rest.drop sign)
      then some (1 + sign) else none

/-- Read a fraction, and say whether its dot was there. -/
def readFraction : Work Bool := do
  let dotted ← accept ['.']
  if dotted then
    acceptRun decimalDigits
    return true
  else
    return false

/-- Read an exponent, and say whether it was there. -/
def readExponent : Work Bool := do
  match exponentMarker? (← remaining) with
  | some marker =>
      skip marker
      acceptRun decimalDigits
      return true
  | none => return false

/-- Read a number, and say which kind it is. -/
def readNumber : Work Kind := do
  match radixDigits? (← remaining) with
  | some digits =>
      skip 2
      acceptRun digits
      return .integer
  | none =>
      acceptRun decimalDigits
      let dotted ← readFraction
      let scaled ← readExponent
      return if dotted || scaled then .decimal else .integer

/-- A number. -/
def number : Work (Option Section) := do
  emit (← readNumber)
  return some .script

/-- A single-quoted string. -/
def singleQuoted : Work (Option Section) := do
  pass
  if ← readQuoted then
    emit .singleQuoted
    return some .script
  else
    warn .singleQuoted
    emit .invalid
    return none

/-- The quote that opens a string with a body. -/
def openBody (inside : Enclosure) : Work (Option Section) := do
  pass
  emit .char
  enclose (some inside)
  return some .body

/-- An operator or a single character. -/
def operator : Work (Option Section) := do
  match Lexeme.operators.find? (·.isPrefixOf (← remaining)) with
  | some text =>
      skip text.length
      emit .operator
      return some .script
  | none =>
      match ← next with
      | none => return none
      | some _ =>
          emit .char
          return some .script

/-- A heredoc header, with the closing line if that follows at once.  Bytes that make no
header are operators. -/
def heredoc : Work (Option Section) := do
  match Heredoc.header? (← remaining) with
  | none => operator
  | some header =>
      skip header.size
      emit .heredocStart
      match Heredoc.closingLength? header.label (← remaining) with
      | some size =>
          skip size
          emit .heredocEnd
          return some .script
      | none =>
          enclose (some (.heredoc header.label))
          return some .body

/-- The next construct of a script, by its first bytes. -/
def script : Work (Option Section) := do
  match ← remaining with
  | [] => return none
  | first :: rest =>
      let bytes := first :: rest
      let secondIs (byte : UInt8) : Bool := Bytes.startsWhere (· == byte) rest
      if Byte.isSpace first then
        acceptRun [' ', '\t', '\n', '\r']
        emit .whitespace
        return some .script
      else if first = Byte.question && secondIs Byte.greater then closeTag
      else if first = Byte.hash || (first = Byte.slash && secondIs Byte.slash) then lineComment
      else if first = Byte.slash && secondIs Byte.star then blockComment
      else if Lexeme.startsVariable bytes then sigiled
      else if Byte.isDigit first || (first = Byte.dot && Bytes.startsWhere Byte.isDigit rest) then
        number
      else if first = Byte.singleQuote then singleQuoted
      else if first = Byte.doubleQuote then openBody .doubleQuote
      else if first = Byte.backtick then openBody .backtick
      else if Heredoc.opener.isPrefixOf bytes then heredoc
      else if (← peek).any Text.isNameStart then name
      else operator

/-! ### Body -/

/-- What stands at the cursor in a body. -/
inductive Piece where
  | nothing
  | escape
  | sigil
  | quote
  | closingLine (size : Nat)
  | character

/-- The piece at the front.  What ends a body depends on the enclosure. -/
def piece (inside : Option Enclosure) : Bytes → Piece
  | [] => .nothing
  | byte :: rest =>
      if byte = Byte.backslash then .escape
      else if Lexeme.startsVariable (byte :: rest) then .sigil
      else
        match inside with
        | none => .character
        | some .doubleQuote => if byte = Byte.doubleQuote then .quote else .character
        | some .backtick => if byte = Byte.backtick then .quote else .character
        | some (.heredoc label) =>
            match Heredoc.closerLength? label (byte :: rest) with
            | some size => .closingLine size
            | none => .character

theorem ne_nil_of_piece {inside : Option Enclosure} {bytes : Bytes} {found : Piece}
    (here : piece inside bytes = found) (something : found ≠ .nothing) : bytes ≠ [] := by
  rintro rfl
  exact something here.symm

/-- Whether a backslash leaves the next character alone. -/
def keepsBreak (inside : Option Enclosure) (following : Option Char) : Bool :=
  match inside with
  | some (.heredoc _) => following.any fun char => char == '\n' || char == '\r'
  | _ => false

/-- The end of the page inside of a body. -/
def cutOffBody (inside : Option Enclosure) : Work (Option Section) := do
  emitPending .bodyText
  match inside with
  | some inside => warn (.body inside)
  -- Outside of every string there is nothing to warn about.
  | none => pure ()
  enclose none
  return none

/-- The terminator of a body. -/
def closeBody (readTerminator : Work Unit) (kind : Kind) : Work (Option Section) := do
  emitPending .bodyText
  readTerminator
  emit kind
  enclose none
  return some .script

/-- A variable in a body. -/
def interpolate : Work Unit := do
  emitPending .bodyText
  readVariable
  emit .variable

/-- Work off a piece of a body.  The answer is what to work on next, or nothing if the body
goes on. -/
def workOff (inside : Option Enclosure) : Piece → Work (Option (Option Section))
  | .nothing => return some (← cutOffBody inside)
  | .escape => do
      pass
      if keepsBreak inside (← peek) then
        return none
      pass
      return none
  | .sigil => do
      interpolate
      return none
  | .quote => return some (← closeBody pass .char)
  | .closingLine size => return some (← closeBody (skip size) .heredocEnd)
  | .character => do
      pass
      return none

/-- Work off the piece of a body that stands at the cursor. -/
def bodyPiece : Work (Option (Option Section)) := do
  let inside ← enclosure
  workOff inside (piece inside (← remaining))

/-! ### The loop of a body -/

section

variable {Answer Later : Type} {before after : Worker}

/-- What is done in two parts is done if both are. -/
theorem exists_of_bind {work : Work Answer} {later : Answer → Work Later} {answer : Later}
    (done : (work >>= later) before = .ok answer after) :
    ∃ found middle, work before = .ok found middle ∧ later found middle = .ok answer after := by
  simp only [bind, EStateM.bind] at done
  split at done
  · next found middle first => exact ⟨found, middle, first, done⟩
  · contradiction

theorem ahead_of_moveMark {cursor moved : Cursor} (done : cursor.moveMark = .ok moved) :
    moved.ahead = cursor.ahead := by
  rw [Cursor.moveMark] at done
  split at done
  · contradiction
  · cases done
    rfl

theorem ahead_of_scanner_emit {scanner published : Scanner} {kind : Kind}
    {reached : Option Token} (done : scanner.emit kind = .ok (reached, published)) :
    published.cursor.ahead = scanner.cursor.ahead := by
  rw [Scanner.emit, Cursor.takeSpan] at done
  cases moved : scanner.cursor.moveMark with
  | error fault => cases held : scanner.cursor.pending <;> simp [moved, held] at done
  | ok cursor =>
      have same := ahead_of_moveMark moved
      cases held : scanner.cursor.pending with
      | error fault => simp [held] at done
      | ok data =>
          simp only [moved, held] at done
          split at done
          · cases done
            exact same
          · cases done
            exact same

theorem ahead_of_emit {kind : Kind} (done : emit kind before = .ok () after) :
    after.cursor.ahead = before.cursor.ahead := by
  rw [emit] at done
  split at done
  · next published emitted =>
      cases done
      exact ahead_of_scanner_emit emitted
  · contradiction

theorem ahead_of_emitPending {kind : Kind} (done : emitPending kind before = .ok () after) :
    after.cursor.ahead = before.cursor.ahead := by
  rw [emitPending, Scanner.emitPending] at done
  cases held : before.cursor.pending with
  | error fault => simp [held] at done
  | ok data =>
      cases data with
      | nil =>
          simp only [held] at done
          cases done
          rfl
      | cons byte rest =>
          simp only [held] at done
          exact ahead_of_emit done

theorem interpolate_shortens (left : before.cursor.ahead ≠ [])
    (done : interpolate before = .ok () after) :
    after.cursor.ahead.length < before.cursor.ahead.length := by
  obtain ⟨⟨⟩, published, emitted, done⟩ := exists_of_bind done
  have start := ahead_of_emitPending emitted
  obtain ⟨⟨⟩, worker, read, done⟩ := exists_of_bind done
  cases read
  have here : published.cursor.ahead ≠ [] := start ▸ left
  have shorter := Cursor.ahead_length_next_lt here
  have passed : (published.cursor.next.2.acceptWhile Text.isNamePart).ahead.length ≤
      published.cursor.next.2.ahead.length := by
    simp [Cursor.acceptWhile, Cursor.forward]
  rw [ahead_of_emit done, ← start]
  exact Nat.lt_of_le_of_lt passed shorter

/-- A body that goes on has read something. -/
theorem bodyPiece_shortens (done : bodyPiece before = .ok none after) :
    after.cursor.ahead.length < before.cursor.ahead.length := by
  obtain ⟨inside, worker, same, done⟩ := exists_of_bind done
  cases same
  obtain ⟨bytes, worker, same, done⟩ := exists_of_bind done
  cases same
  cases here : piece before.enclosure before.cursor.ahead with
  | nothing =>
      rw [here] at done
      obtain ⟨answer, worker, -, done⟩ := exists_of_bind done
      cases done
  | escape =>
      rw [here] at done
      have shorter := Cursor.ahead_length_next_lt (ne_nil_of_piece here nofun)
      obtain ⟨char?, worker, same, done⟩ := exists_of_bind done
      cases same
      obtain ⟨following, worker, same, done⟩ := exists_of_bind done
      cases same
      split at done
      · cases done
        exact shorter
      · cases done
        exact Nat.lt_of_le_of_lt (Cursor.ahead_length_next_le _) shorter
  | sigil =>
      rw [here] at done
      obtain ⟨⟨⟩, worker, interpolated, done⟩ := exists_of_bind done
      cases done
      exact interpolate_shortens (ne_nil_of_piece here nofun) interpolated
  | quote =>
      rw [here] at done
      obtain ⟨answer, worker, -, done⟩ := exists_of_bind done
      cases done
  | closingLine size =>
      rw [here] at done
      obtain ⟨answer, worker, -, done⟩ := exists_of_bind done
      cases done
  | character =>
      rw [here] at done
      cases done
      exact Cursor.ahead_length_next_lt (ne_nil_of_piece here nofun)

end

/-- The body of a string, piece by piece. -/
def body : Work (Option Section) :=
  fun worker =>
    match _step : bodyPiece worker with
    | .error fault after => .error fault after
    | .ok (some answer) after => .ok answer after
    | .ok none after => body after
  termination_by worker => worker.cursor.ahead.length
  decreasing_by exact bodyPiece_shortens _step

end Work

namespace Section

/-- The work of a section. -/
def work : Section → Work (Option Section)
  | .text => Work.text
  | .script => Work.script
  | .body => Work.body

/-- The sections as a state machine.  Between two calls the enclosure is all that is kept
beside the scanner. -/
def grammar : Grammar where
  State := Section × Option Enclosure
  call := fun (current, enclosure) scanner =>
    match current.work ⟨scanner, enclosure⟩ with
    | .ok (some following) after => (.next (following, after.enclosure), after.scanner)
    | .ok none after => (.stop, after.scanner)
    | .error fault after => (.fail fault, after.scanner)

end Section

end PageScript
