import PageScript.Proofs.ClosingLine
import PageScript.Proofs.Encoding
import PageScript.Text.Name

/-!
# Characters and bytes

A cursor steps by characters, while the lexemes are cut by bytes.  No byte outside of
ASCII ends a run, closes a string or is the second half of an escape, so both readings
of a page stop at the same places, on well-formed text and on broken bytes alike.
-/

namespace PageScript

open Utf8 (IsBeyondAscii isBeyondAscii_cons isRead_of_next? exists_cons_of_next?
  length_drop_lt_of_next? ne_of_beyond)

theorem drop_run (lead : UInt8) (run rest : Bytes) :
    (lead :: run ++ rest).drop (run.length + 1) = rest :=
  List.drop_left

namespace Cursor

/-- A class of characters and a class of bytes that hold the same part of ASCII, and
outside of it both everything or both nothing. -/
structure Agree (accepts : Char → Bool) (accept : UInt8 → Bool) (beyond : Bool) : Prop where
  ascii : ∀ byte < 0x80, accepts (Char.ofNat byte.toNat) = accept byte
  char : ∀ char : Char, 0x80 ≤ char.toNat → accepts char = beyond
  byte : ∀ byte, 0x80 ≤ byte → accept byte = beyond

variable {accepts : Char → Bool} {accept : UInt8 → Bool} {beyond : Bool}

/-- Accepting characters moves over the run of bytes of the same class, on broken
bytes too. -/
theorem charRun_eq_runLength (agree : Agree accepts accept beyond) (bytes : Bytes) :
    charRun accepts bytes = Bytes.runLength accept bytes := by
  fun_induction charRun accepts bytes with
  | case1 bytes ended =>
      cases Utf8.eq_nil_of_next? ended
      rfl
  | case2 bytes char size read accepted ih =>
      rw [ih]
      cases isRead_of_next? read with
      | @ascii lead rest small =>
          rw [agree.ascii lead small] at accepted
          rw [Bytes.runLength, if_pos accepted, Nat.add_comm]
          rfl
      | @beyond _ lead run rest all outside =>
          have members : ∀ byte ∈ lead :: run, accept byte := fun byte member =>
            (agree.byte byte (all byte member)).trans
              ((agree.char char outside).symm.trans accepted)
          rw [drop_run, Bytes.runLength_eq_length_takeWhile (lead :: run ++ rest),
            List.takeWhile_append_of_pos members, List.length_append,
            Bytes.runLength_eq_length_takeWhile]
          rfl
  | case3 bytes char size read refused =>
      cases isRead_of_next? read with
      | @ascii lead rest small =>
          rw [agree.ascii lead small] at refused
          rw [Bytes.runLength, if_neg refused]
      | @beyond _ lead run rest all outside =>
          have large := (isBeyondAscii_cons.mp all).1
          rw [agree.char char outside, ← agree.byte lead large] at refused
          rw [List.cons_append, Bytes.runLength, if_neg refused]

/-- A class that is a list of ASCII characters is the list of their bytes. -/
theorem agree_contains {chars : List Char} (small : ∀ char ∈ chars, char.toNat < 0x80) :
    Agree (chars.contains ·) ((chars.map Byte.ofChar).contains ·) false where
  ascii := by
    intro byte ascii
    rw [Bool.eq_iff_iff, List.contains_iff_mem, List.contains_iff_mem, List.mem_map]
    constructor
    · intro member
      refine ⟨_, member, ?_⟩
      rw [Byte.ofChar, Utf8.toNat_ofNat ascii, UInt8.ofNat_toNat]
    · rintro ⟨char, member, rfl⟩
      rwa [Byte.toNat_ofChar (small char member), Char.ofNat_toNat]
  char := by
    intro char outside
    rw [Bool.eq_false_iff]
    intro member
    exact Nat.not_le.mpr (small char (List.contains_iff_mem.mp member)) outside
  byte := by
    intro byte large
    rw [Bool.eq_false_iff]
    intro member
    obtain ⟨char, isChar, rfl⟩ := List.mem_map.mp (List.contains_iff_mem.mp member)
    rw [UInt8.le_iff_toNat_le, Byte.toNat_ofChar (small char isChar)] at large
    exact Nat.not_le.mpr (small char isChar) large

/-- Accepting listed ASCII characters moves over the run of their bytes. -/
theorem charRun_contains {chars : List Char} (small : ∀ char ∈ chars, char.toNat < 0x80)
    (bytes : Bytes) :
    charRun (chars.contains ·) bytes = Bytes.runLength ((chars.map Byte.ofChar).contains ·) bytes :=
  charRun_eq_runLength (agree_contains small) bytes

theorem agree_isNamePart : Agree Text.isNamePart Byte.isNamePart true where
  ascii := by
    intro byte small
    have code : byte.toNat < 128 := UInt8.lt_iff_toNat_lt.mp small
    have all : ∀ code : Fin 128, Text.isNamePart (Char.ofNat code.val) =
        Byte.isNamePart (UInt8.ofNat code.val) := by decide
    simpa using all ⟨byte.toNat, code⟩
  char := by
    intro char outside
    simp [Text.isNamePart, Text.isNameStart, outside]
  byte := by
    intro byte large
    simp [Byte.isNamePart, Byte.isNameStart, large]

/-- A name read by characters is as long as the name cut by bytes. -/
theorem charRun_eq_nameLength {bytes : Bytes} (starts : Bytes.startsWhere Byte.isNameStart bytes) :
    charRun Text.isNamePart bytes = Bytes.nameLength bytes := by
  rw [charRun_eq_runLength agree_isNamePart, Bytes.nameLength, if_pos starts]

end Cursor

namespace Lexeme

/-- Number of bytes of the character at the front, if there is one. -/
def charLength (bytes : Bytes) : Nat :=
  ((Utf8.next? bytes).map (·.2)).getD 0

/-- Number of bytes up to and with the closing single quote, read by characters. -/
def readQuoted? (bytes : Bytes) : Option Nat :=
  match _read : Utf8.next? bytes with
  | none => none
  | some (char, size) =>
      if char = '\'' then
        some size
      else if char = '\\' then
        let escape := size + charLength (bytes.drop size)
        (readQuoted? (bytes.drop escape)).map (· + escape)
      else
        (readQuoted? (bytes.drop size)).map (· + size)
  termination_by bytes.length
  decreasing_by
    all_goals
      have shorter := length_drop_lt_of_next? _read
      rw [List.length_drop] at shorter ⊢
      omega

/-- Whether the next character is a line break that a backslash leaves alone. -/
def peeksLineBreak (enclosure : Enclosure) (bytes : Bytes) : Bool :=
  match enclosure with
  | .heredoc _ => ((Utf8.next? bytes).map (·.1)).any fun char => char == '\n' || char == '\r'
  | _ => false

variable {enclosure : Enclosure}

theorem charLength_of_next? {bytes : Bytes} {char : Char} {size : Nat}
    (read : Utf8.next? bytes = some (char, size)) : charLength bytes = size := by
  rw [charLength, read]
  rfl

/-- A character that opens no name takes one byte. -/
theorem charLength_of_not_isNameStart {byte : UInt8} (stops : ¬ Byte.isNameStart byte)
    (rest : Bytes) : charLength (byte :: rest) = 1 := by
  have small : byte < 0x80 := UInt8.not_le.mp fun large => stops (by simp [Byte.isNameStart, large])
  exact charLength_of_next? (Utf8.next?_ascii small rest)

/-- A byte outside of ASCII is none of the bytes that the body of a string asks for. -/
theorem ordinary_of_beyond (enclosure : Enclosure) {byte : UInt8} (large : 0x80 ≤ byte)
    (rest : Bytes) :
    byte ≠ Byte.singleQuote ∧ byte ≠ Byte.backslash ∧
      ¬ startsVariable (byte :: rest) ∧ ¬ (terminator? enclosure (byte :: rest)).isSome := by
  have notDollar : byte ≠ Byte.dollar := ne_of_beyond large (by decide)
  refine ⟨ne_of_beyond large (by decide), ne_of_beyond large (by decide), ?_, ?_⟩
  · simp [startsVariable, notDollar]
  · cases enclosure with
    | doubleQuote =>
        have notQuote : byte ≠ Byte.doubleQuote := ne_of_beyond large (by decide)
        simp [terminator?, notQuote]
    | backtick =>
        have notBacktick : byte ≠ Byte.backtick := ne_of_beyond large (by decide)
        simp [terminator?, notBacktick]
    | heredoc label =>
        have notLineFeed : byte ≠ Byte.lineFeed := ne_of_beyond large (by decide)
        have notCarriageReturn : byte ≠ Byte.carriageReturn := ne_of_beyond large (by decide)
        simp [terminator?, Heredoc.closerLength?_of_ne notLineFeed notCarriageReturn]

/-- Bytes outside of ASCII are passed over up to the closing quote. -/
theorem singleQuoteLength?_append {run : Bytes} (all : IsBeyondAscii run) (rest : Bytes) :
    singleQuoteLength? (run ++ rest) = (singleQuoteLength? rest).map (· + run.length) := by
  induction run with
  | nil => simp
  | cons byte run ih =>
      obtain ⟨large, others⟩ := isBeyondAscii_cons.mp all
      obtain ⟨notQuote, notBackslash, -⟩ :=
        ordinary_of_beyond .doubleQuote large (run ++ rest)
      rw [List.cons_append, singleQuoteLength?.eq_def]
      simp only [if_neg notQuote, if_neg notBackslash, ih others, Option.map_map]
      rfl

/-- Bytes outside of ASCII are text of any body. -/
theorem textLength_append (enclosure : Enclosure) {run : Bytes} (all : IsBeyondAscii run)
    (rest : Bytes) :
    textLength enclosure (run ++ rest) = run.length + textLength enclosure rest := by
  induction run with
  | nil => simp
  | cons byte run ih =>
      obtain ⟨large, others⟩ := isBeyondAscii_cons.mp all
      obtain ⟨-, notBackslash, noVariable, noTerminator⟩ :=
        ordinary_of_beyond enclosure large (run ++ rest)
      rw [List.cons_append, textLength_of_ne notBackslash noVariable noTerminator, ih others,
        List.length_cons, Nat.add_right_comm]

theorem singleQuoteLength?_quote (rest : Bytes) :
    singleQuoteLength? (Byte.singleQuote :: rest) = some 1 := by
  rw [singleQuoteLength?.eq_def]
  exact if_pos rfl

/-- Behind a backslash a string is read on after the next character. -/
theorem singleQuoteLength?_backslash (rest : Bytes) :
    singleQuoteLength? (Byte.backslash :: rest) =
      (singleQuoteLength? ((Byte.backslash :: rest).drop (1 + charLength rest))).map
        (· + (1 + charLength rest)) := by
  rw [Nat.add_comm 1, List.drop_succ_cons]
  cases read : Utf8.next? rest with
  | none =>
      cases Utf8.eq_nil_of_next? read
      rfl
  | some pair =>
      obtain ⟨char, size⟩ := pair
      rw [charLength_of_next? read]
      cases isRead_of_next? read with
      | ascii rest small => rfl
      | @beyond _ lead run rest all outside =>
          have others := singleQuoteLength?_append (isBeyondAscii_cons.mp all).2 rest
          have skipped : singleQuoteLength? (Byte.backslash :: (lead :: run ++ rest)) =
              (singleQuoteLength? (run ++ rest)).map (· + 2) := rfl
          rw [drop_run, skipped, others, Option.map_map]
          rfl

/-- Any other character is passed over. -/
theorem singleQuoteLength?_of_isRead {bytes : Bytes} {char : Char} {size : Nat}
    (read : Utf8.IsRead bytes char size) (notQuote : char ≠ '\'') (notBackslash : char ≠ '\\') :
    singleQuoteLength? bytes = (singleQuoteLength? (bytes.drop size)).map (· + size) := by
  cases read with
  | @ascii lead rest small =>
      have front := Utf8.IsRead.ascii rest small
      have quote := front.eq_iff Byte.singleQuote (by decide)
      have backslash := front.eq_iff Byte.backslash (by decide)
      rw [singleQuoteLength?.eq_def]
      simp only [if_neg (mt quote.mpr notQuote), if_neg (mt backslash.mpr notBackslash)]
      rfl
  | @beyond _ lead run rest all outside =>
      rw [singleQuoteLength?_append all, drop_run]
      rfl

/-- A line break is peeked exactly where its byte is at the front. -/
theorem peeksLineBreak_eq (enclosure : Enclosure) (bytes : Bytes) :
    peeksLineBreak enclosure bytes = Bytes.startsWhere (keepsLineBreak enclosure) bytes := by
  cases bytes with
  | nil => cases enclosure <;> rfl
  | cons lead rest =>
      cases enclosure with
      | doubleQuote => rfl
      | backtick => rfl
      | heredoc label =>
          obtain ⟨⟨char, size⟩, read⟩ : ∃ pair, Utf8.next? (lead :: rest) = some pair := ⟨_, rfl⟩
          have front := isRead_of_next? read
          have lineFeed : char = '\n' ↔ lead = Byte.lineFeed :=
            front.eq_iff Byte.lineFeed (by decide)
          have carriageReturn : char = '\r' ↔ lead = Byte.carriageReturn :=
            front.eq_iff Byte.carriageReturn (by decide)
          rw [Bool.eq_iff_iff]
          simp [peeksLineBreak, keepsLineBreak, read, lineFeed, carriageReturn]

/-- Behind a backslash a body is read on before a line break that is kept. -/
theorem textLength_backslash_of_keeps {rest : Bytes}
    (keeps : Bytes.startsWhere (keepsLineBreak enclosure) rest) :
    textLength enclosure (Byte.backslash :: rest) = 1 + textLength enclosure rest := by
  cases rest with
  | nil => contradiction
  | cons following after => rw [textLength_backslash_cons, if_pos keeps, Nat.add_comm]

/-- Behind a backslash a body is read on after the next character otherwise. -/
theorem textLength_backslash {rest : Bytes}
    (loses : ¬ Bytes.startsWhere (keepsLineBreak enclosure) rest) :
    textLength enclosure (Byte.backslash :: rest) =
      1 + charLength rest +
        textLength enclosure ((Byte.backslash :: rest).drop (1 + charLength rest)) := by
  rw [Nat.add_comm 1, List.drop_succ_cons]
  cases read : Utf8.next? rest with
  | none =>
      cases Utf8.eq_nil_of_next? read
      rfl
  | some pair =>
      obtain ⟨char, size⟩ := pair
      rw [charLength_of_next? read]
      cases isRead_of_next? read with
      | @ascii lead rest small =>
          rw [textLength_backslash_cons, if_neg loses]
          exact Nat.add_comm _ _
      | @beyond _ lead run rest all outside =>
          have skipped := textLength_append enclosure (isBeyondAscii_cons.mp all).2 rest
          rw [List.cons_append] at loses ⊢
          rw [textLength_backslash_cons, if_neg loses, ← List.cons_append, drop_run, skipped]
          omega

/-- Any other character at which the body goes on is text. -/
theorem textLength_of_isRead {bytes : Bytes} {char : Char} {size : Nat}
    (read : Utf8.IsRead bytes char size) (notBackslash : char ≠ '\\')
    (noVariable : ¬ startsVariable bytes) (noTerminator : ¬ (terminator? enclosure bytes).isSome) :
    textLength enclosure bytes = size + textLength enclosure (bytes.drop size) := by
  cases read with
  | @ascii lead rest small =>
      have front := Utf8.IsRead.ascii rest small
      have backslash := front.eq_iff Byte.backslash (by decide)
      rw [textLength_of_ne (mt backslash.mpr notBackslash) noVariable noTerminator]
      exact Nat.add_comm _ _
  | @beyond _ lead run rest all outside =>
      rw [textLength_append enclosure all, drop_run]
      rfl

/-- A single-quoted string read by characters ends at the quote that ends it by
bytes. -/
theorem readQuoted?_eq (bytes : Bytes) : readQuoted? bytes = singleQuoteLength? bytes := by
  fun_induction readQuoted? bytes with
  | case1 bytes ended =>
      cases Utf8.eq_nil_of_next? ended
      rfl
  | case2 bytes size read =>
      obtain ⟨rest, rfl, rfl⟩ := exists_cons_of_next? Byte.singleQuote (by decide) read
      exact (singleQuoteLength?_quote rest).symm
  | case3 bytes size escape read notQuote ih =>
      obtain ⟨rest, rfl, rfl⟩ := exists_cons_of_next? Byte.backslash (by decide) read
      rw [ih]
      exact (singleQuoteLength?_backslash rest).symm
  | case4 bytes char size read notQuote notBackslash ih =>
      rw [ih]
      exact (singleQuoteLength?_of_isRead (isRead_of_next? read) notQuote notBackslash).symm

end Lexeme

end PageScript
