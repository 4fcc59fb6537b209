import PageScript.Proofs.Calls
import PageScript.Proofs.Sections

/-!
# What the work of a section leads to

A `Spot` is a scanner in the middle of a page, whose reader is there: what was published and
what is pending, with the bytes on either side.  The width of the last reading is left out,
for no section undoes a reading that it has not just made.  `Work.Leads` says where work
leads from one spot to another, whatever that width is, and work that is done in two parts
leads where the parts do.
-/

namespace PageScript

namespace Mode

/-- The section that works in a mode. -/
def toSection : Mode → Section
  | .text => .text
  | .script => .script
  | .body _ => .body

/-- The enclosure of a mode. -/
def enclosure? : Mode → Option Enclosure
  | .body enclosure => some enclosure
  | _ => none

end Mode

/-- A scanner between the bytes before its mark, nearest first, the pending bytes, and the
bytes left. -/
structure Spot where
  file : FileId
  published : List Token
  warnings : List Warning
  enclosure : Option Enclosure
  behind : Bytes
  held : Bytes
  ahead : Bytes

/-- A cursor with another width of its last reading. -/
def Cursor.withWidth (cursor : Cursor) (width : Nat) : Cursor :=
  { cursor with width }

namespace Spot

/-- The scanner of a spot. -/
def scanner (spot : Spot) (width : Nat) : Scanner where
  cursor := (Cursor.holding spot.behind spot.held spot.ahead).withWidth width
  file := spot.file
  published := spot.published
  warnings := spot.warnings

/-- The worker of a spot. -/
def worker (spot : Spot) (width : Nat) : Worker where
  scanner := spot.scanner width
  enclosure := spot.enclosure

/-- Move over bytes that are left. -/
def move (spot : Spot) (count : Nat) : Spot :=
  { spot with held := spot.held ++ spot.ahead.take count, ahead := spot.ahead.drop count }

/-- Publish the pending text. -/
def publish (spot : Spot) (kind : Kind) : Spot :=
  { spot with
    published := .after spot.file spot.behind kind spot.held :: spot.published
    behind := spot.held.reverse ++ spot.behind
    held := [] }

/-- Publish the pending text unless it is empty. -/
def publishPending (spot : Spot) (kind : Kind) : Spot :=
  if spot.held = [] then spot else spot.publish kind

/-- Publish lexemes one after the other. -/
def publishAll : List Lexeme → Spot → Spot
  | [], spot => spot
  | lexeme :: rest, spot => publishAll rest ((spot.move lexeme.size).publish lexeme.kind)

/-- Warn about a construct that begins at the mark. -/
def warn (spot : Spot) (construct : Unterminated) : Spot :=
  let cursor := Cursor.between spot.behind spot.ahead
  { spot with warnings := construct.warning cursor.line cursor.column :: spot.warnings }

/-- Warn about a construct if one is cut off. -/
def warnIf (spot : Spot) : Option Unterminated → Spot
  | none => spot
  | some construct => spot.warn construct

/-- Go into an enclosure, or out of it. -/
def enclose (spot : Spot) (enclosure : Option Enclosure) : Spot :=
  { spot with enclosure }

variable {spot : Spot}

@[simp] theorem ahead_move (spot : Spot) (count : Nat) :
    (spot.move count).ahead = spot.ahead.drop count := rfl

@[simp] theorem move_zero (spot : Spot) : spot.move 0 = spot := by
  simp [move]

@[simp] theorem move_move (spot : Spot) (first second : Nat) :
    (spot.move first).move second = spot.move (first + second) := by
  simp [move, List.take_add]

/-- Moving on behind bytes that are there, or to the end. -/
theorem move_getD {first : Nat} (spot : Spot) (fits : first ≤ spot.ahead.length)
    (second? : Option Nat) :
    spot.move ((second?.map (· + first)).getD spot.ahead.length) =
      (spot.move first).move (second?.getD (spot.ahead.drop first).length) := by
  cases second? with
  | some second => simp [Nat.add_comm]
  | none => simp [Nat.add_sub_cancel' fits]

theorem publishAll_append (spot : Spot) (front back : List Lexeme) :
    spot.publishAll (front ++ back) = (spot.publishAll front).publishAll back := by
  induction front generalizing spot with
  | nil => rfl
  | cons lexeme front ih => exact ih _

/-- Pending text that was just moved over is a lexeme, unless it is empty. -/
theorem publishPending_move {size : Nat} (kind : Kind) (nothing : spot.held = [])
    (fits : size ≤ spot.ahead.length) :
    (spot.move size).publishPending kind =
      spot.publishAll (if size = 0 then [] else [⟨kind, size⟩]) := by
  by_cases zero : size = 0
  · simp [zero, publishPending, nothing, publishAll]
  · have something : (spot.move size).held ≠ [] := by
      intro empty
      have length := congrArg List.length empty
      simp only [move, List.length_append, List.length_take, List.length_nil] at length
      omega
    simp [publishPending, something, zero, publishAll]

/-- Lexemes that fit become the tokens that they are placed as. -/
theorem publishAll_eq (spot : Spot) (nothing : spot.held = []) (lexemes : List Lexeme) :
    spot.publishAll lexemes =
      { spot with
        published :=
          (Lexeme.place spot.file spot.behind spot.ahead lexemes).reverse ++ spot.published
        behind := spot.behind.readOn spot.ahead (Lexeme.totalSize lexemes)
        ahead := spot.ahead.drop (Lexeme.totalSize lexemes) } := by
  induction lexemes generalizing spot with
  | nil => simp [publishAll]
  | cons lexeme rest ih =>
      rw [publishAll, ih _ rfl]
      simp [move, publish, nothing, Lexeme.place, Bytes.readOn, List.take_add]

/-- What a cut leaves behind. -/
def follow (spot : Spot) (cut : Cut) : Spot :=
  ((spot.warnIf cut.unterminated).publishAll cut.lexemes).enclose (cut.next.bind Mode.enclosure?)

end Spot

theorem Lexeme.charLength_le (bytes : Bytes) : charLength bytes ≤ bytes.length := by
  rw [charLength]
  cases read : Utf8.next? bytes with
  | none => exact Nat.zero_le _
  | some pair => exact (Utf8.size_bounds_of_next? read).2.2

namespace Cursor

/-- Moving on holds the bytes moved over. -/
theorem forward_holding (behind held ahead : Bytes) (width count : Nat) :
    ((holding behind held ahead).withWidth width).forward count =
      (holding behind (held ++ ahead.take count) (ahead.drop count)).withWidth width := by
  simp only [withWidth, forward, left, holding, List.reverseAux_eq, List.reverse_append,
    List.append_assoc, List.length_append, List.length_take, List.length_drop, Cursor.mk.injEq,
    true_and, and_true]
  omega

/-- A reading that is undone is held no longer. -/
theorem backward_holding (behind held part ahead : Bytes) (width : Nat) :
    ((holding behind (held ++ part) ahead).withWidth width).backward part.length =
      (holding behind held (part ++ ahead)).withWidth width := by
  have nearest : (held ++ part).reverse ++ behind = part.reverse ++ (held.reverse ++ behind) := by
    simp
  have length : part.length = part.reverse.length := List.length_reverse.symm
  simp only [withWidth, backward, holding, nearest, List.reverseAux_eq, List.length_append,
    Cursor.mk.injEq]
  rw [length, List.take_left, List.drop_left]
  simp
  omega

/-- Taking a span keeps the width of the last reading. -/
theorem takeSpan_withWidth (behind held ahead : Bytes) (file : FileId) (width : Nat) :
    ((holding behind held ahead).withWidth width).takeSpan file =
      .ok (.after file behind held.length,
        (between (held.reverse ++ behind) ahead).withWidth width) := by
  have moved := moveMark_withWidth (holding behind held ahead) width
  rw [moveMark_holding] at moved
  have column : ((holding behind held ahead).withWidth width).column =
      UInt32.ofNat (Bytes.runLength (· != Byte.lineFeed) behind + 1) :=
    column_holding behind held ahead
  rw [takeSpan, withWidth, moved, ← withWidth, column]
  rfl

end Cursor

namespace Work

variable {Answer Later : Type} {spot middle after : Spot} {answer : Answer}

/-- Work leads from one spot to another, whatever the last reading was. -/
def Leads (work : Work Answer) (before : Spot) (answer : Answer) (after : Spot) : Prop :=
  ∀ width, ∃ rest, work (before.worker width) = .ok answer (after.worker rest)

theorem pure_leads (spot : Spot) (answer : Answer) : Leads (pure answer) spot answer spot :=
  fun width => ⟨width, rfl⟩

theorem Leads.bind {work : Work Answer} {later : Answer → Work Later} {last : Later}
    (first : work.Leads spot answer middle) (second : (later answer).Leads middle last after) :
    (work >>= later).Leads spot last after := by
  intro width
  obtain ⟨between, done⟩ := first width
  obtain ⟨rest, last⟩ := second between
  refine ⟨rest, ?_⟩
  simp only [Bind.bind, EStateM.bind, done, last]

/-! ### Operations -/

theorem remaining_leads (spot : Spot) : remaining.Leads spot spot.ahead spot :=
  fun width => ⟨width, rfl⟩

theorem peek_leads (spot : Spot) :
    peek.Leads spot ((Utf8.next? spot.ahead).map (·.1)) spot :=
  fun width => ⟨width, rfl⟩

theorem enclosure_leads (spot : Spot) : enclosure.Leads spot spot.enclosure spot :=
  fun width => ⟨width, rfl⟩

theorem enclose_leads (spot : Spot) (inside : Option Enclosure) :
    (enclose inside).Leads spot () (spot.enclose inside) :=
  fun width => ⟨width, rfl⟩

theorem warn_leads (spot : Spot) (construct : Unterminated) :
    (warn construct).Leads spot () (spot.warn construct) :=
  fun width => ⟨width, rfl⟩

theorem pending_leads (spot : Spot) : pending.Leads spot spot.held spot := by
  intro width
  have held : (spot.worker width).cursor.pending = .ok spot.held :=
    Cursor.pending_holding spot.behind spot.held spot.ahead
  refine ⟨width, ?_⟩
  rw [pending, held]

theorem skip_leads (spot : Spot) (count : Nat) : (skip count).Leads spot () (spot.move count) := by
  intro width
  have forward := Cursor.forward_holding spot.behind spot.held spot.ahead width count
  have moved : (spot.worker width).cursor.skip count = ((spot.move count).worker 0).cursor :=
    (congrArg (Cursor.withWidth · 0) forward).trans rfl
  refine ⟨0, ?_⟩
  rw [skip, moved]
  rfl

theorem acceptWhile_leads (spot : Spot) (accepts : Char → Bool) :
    (acceptWhile accepts).Leads spot () (spot.move (Cursor.charRun accepts spot.ahead)) :=
  skip_leads spot (Cursor.charRun accepts spot.ahead)

/-- A reading moves over the character at the front, if there is one. -/
theorem next_worker (spot : Spot) (width : Nat) :
    let size := Lexeme.charLength spot.ahead
    (spot.worker width).cursor.next =
      ((Utf8.next? spot.ahead).map (·.1), ((spot.move size).worker size).cursor) := by
  have here : (spot.worker width).cursor.ahead = spot.ahead := rfl
  rw [Cursor.next, here, Lexeme.charLength]
  cases read : Utf8.next? spot.ahead with
  | none =>
      simp only [Option.map_none, Option.getD_none, Spot.move_zero]
      rfl
  | some pair =>
      obtain ⟨char, size⟩ := pair
      have forward := Cursor.forward_holding spot.behind spot.held spot.ahead width size
      exact (congrArg (fun cursor => (some char, Cursor.withWidth cursor size)) forward).trans rfl

theorem next_leads (spot : Spot) :
    next.Leads spot ((Utf8.next? spot.ahead).map (·.1))
      (spot.move (Lexeme.charLength spot.ahead)) := by
  intro width
  refine ⟨Lexeme.charLength spot.ahead, ?_⟩
  rw [next, next_worker]
  rfl

theorem pass_leads (spot : Spot) :
    pass.Leads spot () (spot.move (Lexeme.charLength spot.ahead)) := by
  intro width
  refine ⟨Lexeme.charLength spot.ahead, ?_⟩
  rw [pass, next_worker]
  rfl

theorem backup_worker {count : Nat} (fits : count ≤ spot.ahead.length) :
    ((spot.move count).worker count).cursor.backup = (spot.worker 0).cursor := by
  have length : (spot.ahead.take count).length = count := List.length_take_of_le fits
  have backward := Cursor.backward_holding spot.behind spot.held (spot.ahead.take count)
    (spot.ahead.drop count) count
  rw [length, List.take_append_drop] at backward
  exact (congrArg (Cursor.withWidth · 0) backward).trans rfl

/-- A character that is refused is held no longer. -/
theorem accept_leads (chars : List Char) (spot : Spot) :
    let taken := ((Utf8.next? spot.ahead).map (·.1)).any (chars.contains ·)
    (accept chars).Leads spot taken
      (if taken then spot.move (Lexeme.charLength spot.ahead) else spot) := by
  intro taken width
  have undone := backup_worker (Lexeme.charLength_le spot.ahead)
  have accepted : (spot.worker width).cursor.accept (chars.contains ·) =
      (taken, if taken then ((spot.move (Lexeme.charLength spot.ahead)).worker
        (Lexeme.charLength spot.ahead)).cursor else (spot.worker 0).cursor) := by
    rw [Cursor.accept, next_worker]
    cases read : Utf8.next? spot.ahead with
    | none => simp [taken, read, undone]
    | some pair =>
        have same : taken = chars.contains pair.1 := by
          simp only [taken, read, Option.map_some, Option.any_some]
        simp only [same, Option.map_some, undone]
        cases chars.contains pair.1 <;> rfl
  simp only [accept, accepted]
  cases taken with
  | true => exact ⟨_, rfl⟩
  | false => exact ⟨0, rfl⟩

/-- A string is read up to the quote that closes it, or to the end. -/
theorem readQuoted_leads (spot : Spot) :
    let size? := Lexeme.readQuoted? spot.ahead
    readQuoted.Leads spot size?.isSome (spot.move (size?.getD spot.ahead.length)) := by
  intro size? width
  suffices read : ∃ rest, (spot.worker width).cursor.readQuoted =
      (size?.isSome, ((spot.move (size?.getD spot.ahead.length)).worker rest).cursor) by
    obtain ⟨rest, read⟩ := read
    refine ⟨rest, ?_⟩
    rw [readQuoted, read]
    rfl
  simp only [size?]
  clear size?
  generalize left : spot.ahead = bytes
  fun_induction Lexeme.readQuoted? bytes generalizing spot width with
  | case1 bytes ended =>
      subst left
      have moved := next_worker spot width
      have nothing : Lexeme.charLength spot.ahead = spot.ahead.length := by
        rw [Utf8.eq_nil_of_next? ended]
        rfl
      rw [ended, nothing] at moved
      exact ⟨_, Cursor.readQuoted_of_none moved⟩
  | case2 bytes size read =>
      subst left
      have moved := next_worker spot width
      rw [Lexeme.charLength_of_next? read, read] at moved
      exact ⟨_, Cursor.readQuoted_of_some moved⟩
  | case3 bytes size escape read notQuote ih =>
      subst left
      have moved := next_worker spot width
      rw [Lexeme.charLength_of_next? read, read] at moved
      have fits : escape ≤ spot.ahead.length := by
        have first := (Utf8.size_bounds_of_next? read).2.2
        have second := Lexeme.charLength_le (spot.ahead.drop size)
        rw [List.length_drop] at second
        simp only [escape]
        omega
      have escaped := congrArg Prod.snd (next_worker (spot.move size) size)
      simp only [Spot.move_move] at escaped
      obtain ⟨rest, later⟩ := ih (spot.move escape) _ rfl
      refine ⟨rest, (Cursor.readQuoted_of_some moved).trans ?_⟩
      rw [Option.isSome_map, Spot.move_getD spot fits]
      exact (congrArg Cursor.readQuoted escaped).trans later
  | case4 bytes char size read notQuote notBackslash ih =>
      subst left
      have moved := next_worker spot width
      have fits := (Utf8.size_bounds_of_next? read).2.2
      rw [Lexeme.charLength_of_next? read, read] at moved
      obtain ⟨rest, later⟩ := ih (spot.move size) size rfl
      refine ⟨rest, (Cursor.readQuoted_of_some moved).trans ?_⟩
      rw [if_neg notQuote, if_neg notBackslash, Option.isSome_map, Spot.move_getD spot fits]
      exact later

theorem emit_leads (spot : Spot) (kind : Kind) :
    (emit kind).Leads spot () (spot.publish kind) := by
  intro width
  have held : (spot.scanner width).cursor.pending = .ok spot.held :=
    Cursor.pending_holding spot.behind spot.held spot.ahead
  have span := Cursor.takeSpan_withWidth spot.behind spot.held spot.ahead spot.file width
  have emitted : (spot.scanner width).emit kind =
      .ok (some (.after spot.file spot.behind kind spot.held),
        (spot.publish kind).scanner width) := by
    rw [Scanner.emit, held]
    simp only [Spot.scanner, span]
    rfl
  refine ⟨width, ?_⟩
  simp only [emit, Spot.worker, emitted]
  rfl

theorem emitPending_leads (spot : Spot) (kind : Kind) :
    (emitPending kind).Leads spot () (spot.publishPending kind) := by
  intro width
  have held : (spot.scanner width).cursor.pending = .ok spot.held :=
    Cursor.pending_holding spot.behind spot.held spot.ahead
  cases something : spot.held with
  | nil =>
      refine ⟨width, ?_⟩
      simp only [emitPending, Spot.worker, Scanner.emitPending, held, something,
        Spot.publishPending, if_true]
  | cons byte rest =>
      have nonempty : spot.held ≠ [] := by simp [something]
      obtain ⟨after, done⟩ := emit_leads spot kind width
      refine ⟨after, ?_⟩
      rw [Spot.publishPending, if_neg nonempty, ← done]
      simp only [emitPending, emit, Spot.worker, Scanner.emitPending, held, something]

end Work

end PageScript
