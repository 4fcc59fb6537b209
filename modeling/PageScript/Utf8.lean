import PageScript.Bytes

/-!
# UTF-8 on arbitrary bytes

Reading one character accepts exactly the encoding of a scalar value at the
front of the bytes: a candidate is assembled from the payload bits and is kept
only if its encoding gives the same bytes back.  Overlong forms, surrogates and
truncated sequences therefore need no rules of their own.

Two readings recover from bytes that encode nothing.  `Utf8.next?` replaces one
byte at a time, which is what the cursor steps by.  `Utf8.lossy` replaces the
longest piece that some well-formed sequence begins with, which is what printed
text shows.
-/

namespace PageScript.Utf8

/-- The character that stands for bytes that encode nothing. -/
abbrev replacement : Char := '\uFFFD'

/-- The one to four bytes that encode a character. -/
abbrev encode (char : Char) : Bytes :=
  String.utf8EncodeChar char

/-- The bytes of a whole text. -/
def encodeAll (chars : List Char) : Bytes :=
  chars.flatMap encode

/-- The bytes of a string. -/
def ofString (text : String) : Bytes :=
  encodeAll text.toList

/-- Length of the sequence that a leading byte announces; zero if no sequence
begins with it. -/
def announced (lead : UInt8) : Nat :=
  if lead < 0x80 then 1
  else if lead < 0xC2 then 0
  else if lead < 0xE0 then 2
  else if lead < 0xF0 then 3
  else if lead < 0xF5 then 4
  else 0

/-- The character whose payload bits these bytes carry.  Nothing is checked
here. -/
def candidate : Bytes → Char
  | [first] => Char.ofNat first.toNat
  | [first, second] =>
      Char.ofNat (first.toNat % 32 * 64 + second.toNat % 64)
  | [first, second, third] =>
      Char.ofNat (first.toNat % 16 * 4096 + second.toNat % 64 * 64 + third.toNat % 64)
  | [first, second, third, fourth] =>
      Char.ofNat (first.toNat % 8 * 262144 + second.toNat % 64 * 4096 +
        third.toNat % 64 * 64 + fourth.toNat % 64)
  | _ => replacement

/-- The character encoded at the front, with the length of its encoding. -/
def decode? : Bytes → Option (Char × Nat)
  | [] => none
  | lead :: rest =>
      let size := announced lead
      let sequence := (lead :: rest).take size
      let char := candidate sequence
      if encode char = sequence then some (char, size) else none

/-- The next character, with the number of bytes it takes.  A byte that opens no
encoding counts as one replacement character. -/
def next? : Bytes → Option (Char × Nat)
  | [] => none
  | bytes@(_ :: _) => some ((decode? bytes).getD (replacement, 1))

/-- The characters that the bytes encode, if they are well formed throughout. -/
def decodeAll? : Bytes → Option (List Char)
  | [] => some []
  | lead :: rest =>
      match decode? (lead :: rest) with
      | none => none
      | some (char, size) => (decodeAll? (rest.drop (size - 1))).map (char :: ·)
  termination_by bytes => bytes.length
  decreasing_by exact Bytes.length_drop_lt _ _ _

/-- The text that the bytes encode, if they are well formed throughout. -/
def text? (bytes : Bytes) : Option String :=
  (decodeAll? bytes).map String.ofList

/-- A byte that continues a sequence. -/
def isContinuation (byte : UInt8) : Bool :=
  0x80 ≤ byte && byte ≤ 0xBF

/-- Whether a second byte may follow a leading byte in a well-formed sequence.
Four leading bytes narrow the range, against overlong forms, surrogates and
values past the last scalar. -/
def mayFollow (lead second : UInt8) : Bool :=
  if lead == 0xE0 then 0xA0 ≤ second && second ≤ 0xBF
  else if lead == 0xED then 0x80 ≤ second && second ≤ 0x9F
  else if lead == 0xF0 then 0x90 ≤ second && second ≤ 0xBF
  else if lead == 0xF4 then 0x80 ≤ second && second ≤ 0x8F
  else isContinuation second

/-- For bytes that encode nothing at the front, the length of the piece that one
replacement character stands for: the longest one that begins some well-formed
sequence, and at least one byte. -/
def brokenLength : Bytes → Nat
  | lead :: second :: third :: _ =>
      if announced lead < 3 || !mayFollow lead second then 1
      else if announced lead < 4 || !isContinuation third then 2
      else 3
  | [lead, second] =>
      if announced lead < 3 || !mayFollow lead second then 1 else 2
  | _ => 1

/-- The characters of the bytes, each broken piece replaced. -/
def lossyChars : Bytes → List Char
  | [] => []
  | lead :: rest =>
      match decode? (lead :: rest) with
      | some (char, size) => char :: lossyChars (rest.drop (size - 1))
      | none => replacement :: lossyChars (rest.drop (brokenLength (lead :: rest) - 1))
  termination_by bytes => bytes.length
  decreasing_by
    · exact Bytes.length_drop_lt _ _ _
    · exact Bytes.length_drop_lt _ _ _

/-- The text of the bytes, each broken piece replaced. -/
def lossy (bytes : Bytes) : String :=
  String.ofList (lossyChars bytes)

theorem encode_ne_nil (char : Char) : encode char ≠ [] := by
  simp only [encode, String.utf8EncodeChar]
  repeat' split
  all_goals simp

/-- A decoded character is followed by exactly the bytes that its encoding does
not cover. -/
theorem encode_eq_take_of_decode? {bytes : Bytes} {char : Char} {size : Nat}
    (decoded : decode? bytes = some (char, size)) : encode char = bytes.take size := by
  cases bytes with
  | nil => simp [decode?] at decoded
  | cons lead rest =>
      simp only [decode?] at decoded
      split at decoded
      · next equal =>
          simp only [Option.some.injEq, Prod.mk.injEq] at decoded
          obtain ⟨rfl, rfl⟩ := decoded
          exact equal
      · contradiction

/-- Decoding consumes at least one byte. -/
theorem size_pos_of_decode? {bytes : Bytes} {char : Char} {size : Nat}
    (decoded : decode? bytes = some (char, size)) : 0 < size := by
  have taken := encode_eq_take_of_decode? decoded
  cases size with
  | zero => exact absurd taken (by simp)
  | succ size => exact Nat.succ_pos size

/-- A step of the cursor consumes at least one byte. -/
theorem size_pos_of_next? {bytes : Bytes} {char : Char} {size : Nat}
    (decoded : next? bytes = some (char, size)) : 0 < size := by
  cases bytes with
  | nil => simp [next?] at decoded
  | cons lead rest =>
      simp only [next?, Option.some.injEq] at decoded
      cases found : decode? (lead :: rest) with
      | none =>
          simp only [found, Option.getD_none, Prod.mk.injEq] at decoded
          omega
      | some pair =>
          simp only [found, Option.getD_some] at decoded
          exact size_pos_of_decode? (found.trans (congrArg some decoded))

end PageScript.Utf8
