import Mathlib.Data.Nat.Digits.Defs
import PageScript.Proofs.EscapePieces

/-!
# Code points

The number in the braces of an escape is read digit by digit into a word of 64 bits.  Here
it is compared with the number that the digits spell, however many they are: a word is read
exactly if that number fits, and leading zeros do not count.  The character is then the one
whose number is in the low half of the word.

Braces that spell no word, and a marker without braces, are kept, and the text behind the
marker is read as if it stood alone.
-/

namespace PageScript

namespace Hex

/-- The digits in the order of their values. -/
def alphabet : Bytes :=
  Bytes.ascii "0123456789abcdef"

/-- The value of a digit of either case is its place in the alphabet. -/
def digit (byte : UInt8) : Nat :=
  alphabet.idxOf (Byte.toLower byte)

/-- The number that digits spell, the first digit counting most. -/
def number (digits : Bytes) : Nat :=
  Nat.ofDigits 16 (digits.map digit).reverse

/-- A number in digits: at least one, of either case. -/
structure IsNumeral (digits : Bytes) : Prop where
  nonempty : digits ≠ []
  members : ∀ byte ∈ digits, Byte.isHexDigit byte

variable {byte : UInt8} {digits : Bytes} {value : Nat}

theorem digitValue?_eq (byte : UInt8) :
    digitValue? byte = if Byte.isHexDigit byte then some (digit byte) else none := by
  have all : ∀ code < 256, digitValue? (UInt8.ofNat code) =
      if Byte.isHexDigit (UInt8.ofNat code) then some (digit (UInt8.ofNat code)) else none := by
    decide +kernel
  simpa using all byte.toNat byte.toNat_lt

@[simp] theorem number_nil : number [] = 0 := rfl

theorem number_cons (byte : UInt8) (rest : Bytes) :
    number (byte :: rest) = digit byte * 16 ^ rest.length + number rest := by
  rw [number, List.map_cons, List.reverse_cons, Nat.ofDigits_append, Nat.ofDigits_singleton,
    List.length_reverse, List.length_map, number]
  ring

/-- Digits read after a value put it before their own number, and are refused as soon as the
limit is reached.  Then it is reached in the end: no digit makes a number smaller. -/
theorem wordFrom?_eq (members : ∀ byte ∈ digits, Byte.isHexDigit byte) (fits : value < wordLimit) :
    wordFrom? value digits =
      if value * 16 ^ digits.length + number digits < wordLimit then
        some (value * 16 ^ digits.length + number digits)
      else
        none := by
  induction digits generalizing value with
  | nil => simp [wordFrom?, fits]
  | cons first rest ih =>
      have isDigit := members first List.mem_cons_self
      have others : ∀ byte ∈ rest, Byte.isHexDigit byte := fun byte member =>
        members byte (List.mem_cons_of_mem _ member)
      have same : value * 16 ^ (first :: rest).length + number (first :: rest) =
          (value * 16 + digit first) * 16 ^ rest.length + number rest := by
        rw [number_cons, List.length_cons]
        ring
      rw [wordFrom?, digitValue?_eq, if_pos isDigit, same]
      simp only
      split
      · next fitsStill => exact ih others fitsStill
      · next reached =>
          have grows : value * 16 + digit first ≤
              (value * 16 + digit first) * 16 ^ rest.length + number rest := by
            have one : 1 ≤ 16 ^ rest.length := Nat.one_le_pow _ _ (by decide)
            exact Nat.le_add_right_of_le (Nat.le_mul_of_pos_right _ one)
          rw [if_neg (Nat.not_lt.mpr ((Nat.not_lt.mp reached).trans grows))]

theorem word?_of_not_isNumeral (noNumeral : ¬ IsNumeral digits) : word? digits = none := by
  by_cases empty : digits = []
  · simp [word?, empty]
  · have noDigits : ¬ ∀ byte ∈ digits, Byte.isHexDigit byte := fun members =>
      noNumeral ⟨empty, members⟩
    simp only [not_forall, exists_prop] at noDigits
    obtain ⟨byte, member, noDigit⟩ := noDigits
    apply word?_of_mem member
    rw [digitValue?_eq, if_neg noDigit]

/-- A word is read from a number in digits exactly if the number fits. -/
theorem word?_eq_some_iff :
    word? digits = some value ↔
      IsNumeral digits ∧ number digits < wordLimit ∧ number digits = value := by
  by_cases numeral : IsNumeral digits
  · have filled : digits.isEmpty = false := by simpa using numeral.nonempty
    rw [word?, filled, wordFrom?_eq numeral.members (by decide), Nat.zero_mul, Nat.zero_add]
    simp [numeral, Option.ite_none_right_eq_some]
  · simp [word?_of_not_isNumeral numeral, numeral]

theorem IsNumeral.not_mem (numeral : IsNumeral digits) (noDigit : ¬ Byte.isHexDigit byte) :
    byte ∉ digits :=
  fun member => noDigit (numeral.members byte member)

end Hex

/-- A byte is found where it stands if it does not stand before. -/
theorem Bytes.offsetOf?_append_cons {byte : UInt8} {front : Bytes} (absent : byte ∉ front)
    (rest : Bytes) : offsetOf? [byte] (front ++ byte :: rest) = some front.length := by
  have missing : offsetOf? [byte] front = none := by
    cases found : offsetOf? [byte] front with
    | none => rfl
    | some offset =>
        obtain ⟨before, after, rfl, -⟩ := exists_split_of_offsetOf? found
        simp at absent
  rw [offsetOf?_append, missing, offsetOf?]
  simp

namespace Escape

open Hex (IsNumeral number)

/-- What announces a number in braces. -/
def marker : Bytes :=
  Bytes.ascii "\\u"

/-- Digits between the braces of an escape. -/
def inBraces (digits : Bytes) : Bytes :=
  Byte.leftBrace :: digits ++ [Byte.rightBrace]

/-- A number in braces stands at the front. -/
def BeginsBraced (text : Bytes) : Prop :=
  ∃ digits rest, IsNumeral digits ∧ text = inBraces digits ++ rest

/-- The character for a number: the one that has its low 32 bits for number, or the
replacement character if there is none. -/
structure IsCharacterFor (value : Nat) (char : Char) : Prop where
  valid : (value % 2 ^ 32).isValidChar → char.toNat = value % 2 ^ 32
  replaced : ¬ (value % 2 ^ 32).isValidChar → char = Utf8.replacement

theorem scalar_eq (value : Nat) :
    scalar value =
      if (value % 2 ^ 32).isValidChar then Char.ofNat (value % 2 ^ 32) else Utf8.replacement := by
  have low : value % UInt32.size = value % 2 ^ 32 := rfl
  simp [scalar, low, Nat.isValidChar]

theorem scalar_isCharacterFor (value : Nat) : IsCharacterFor value (scalar value) := by
  rw [scalar_eq]
  constructor
  · intro valid
    rw [if_pos valid, Char.ofNat, dif_pos valid]
    rfl
  · intro invalid
    rw [if_neg invalid]

variable {digits text : Bytes}

theorem braced?_inBraces (numeral : IsNumeral digits) (rest : Bytes) :
    braced? (inBraces digits ++ rest) =
      (Hex.word? digits).map fun value => (scalar value, digits.length + 2) := by
  have absent : Byte.rightBrace ∉ digits := numeral.not_mem (by decide)
  have split : inBraces digits ++ rest =
      Byte.leftBrace :: (digits ++ Byte.rightBrace :: rest) := by simp [inBraces]
  rw [split, braced?, if_pos rfl, Bytes.offsetOf?_append_cons absent]
  simp

theorem beginsBraced_of_braced? {found : Char × Nat} (braced : braced? text = some found) :
    BeginsBraced text := by
  cases text with
  | nil => contradiction
  | cons first rest =>
      rw [braced?] at braced
      split at braced
      · next opens =>
          split at braced
          · contradiction
          · next length inRest =>
              obtain ⟨digits, after, rfl, rfl⟩ := Bytes.exists_split_of_offsetOf? inRest
              rw [List.take_left] at braced
              obtain ⟨value, isWord, -⟩ := Option.map_eq_some_iff.mp braced
              have numeral := (Hex.word?_eq_some_iff.mp isWord).1
              exact ⟨digits, after, numeral, by simp [inBraces, opens]⟩
      · contradiction

theorem escape?_marker (text : Bytes) :
    escape? (Byte.ofChar 'u' :: text) =
      (braced? text).map fun (char, size) => (Utf8.encode char, size + 1) :=
  rfl

/-- A marker without a number behind it stands for itself. -/
theorem decode_marker (none : braced? text = none) :
    decode (marker ++ text) = marker ++ decode text := by
  have written : marker ++ text = Byte.backslash :: Byte.ofChar 'u' :: text := rfl
  have noEscape : escape? (Byte.ofChar 'u' :: text) = Option.none := by
    rw [escape?_marker, none]
    rfl
  rw [written, decode_of_kept noEscape]
  rfl

/-- A number of any length, in digits of either case, stands for its character. -/
theorem decode_codePoint (numeral : IsNumeral digits) (fits : number digits < 2 ^ 64)
    (text : Bytes) :
    decode (marker ++ inBraces digits ++ text) =
      Utf8.encode (scalar (number digits)) ++ decode text := by
  have word : Hex.word? digits = some (number digits) :=
    Hex.word?_eq_some_iff.mpr ⟨numeral, fits, rfl⟩
  have found : escape? (Byte.ofChar 'u' :: (inBraces digits ++ text)) =
      some (Utf8.encode (scalar (number digits)), (inBraces digits).length + 1) := by
    rw [escape?_marker, braced?_inBraces numeral, word]
    simp [inBraces]
  rw [List.append_assoc]
  refine (decode_of_escape found).trans ?_
  rw [List.drop_succ_cons, List.drop_left]

/-- Text without a backslash stands for itself, whatever follows it. -/
theorem decode_append_of_not_mem (plain : Byte.backslash ∉ text) (rest : Bytes) :
    decode (text ++ rest) = text ++ decode rest := by
  rw [decode_eq_flatMap_pieces, pieces_append_of_not_mem plain, List.flatMap_append,
    ← decode_eq_flatMap_pieces, ← decode_eq_flatMap_pieces, decode_of_not_mem plain]

/-- A number that is too large for a word is kept as it is written. -/
theorem decode_tooLarge (numeral : IsNumeral digits) (large : 2 ^ 64 ≤ number digits)
    (text : Bytes) :
    decode (marker ++ inBraces digits ++ text) = marker ++ inBraces digits ++ decode text := by
  have refused : Hex.word? digits = none := by
    apply Option.eq_none_iff_forall_not_mem.mpr
    intro value isWord
    have fits := (Hex.word?_eq_some_iff.mp isWord).2.1
    exact Nat.not_lt.mpr large fits
  have none : braced? (inBraces digits ++ text) = none := by
    rw [braced?_inBraces numeral, refused]
    rfl
  have plain : Byte.backslash ∉ inBraces digits := by
    have absent : Byte.backslash ∉ digits := numeral.not_mem (by decide)
    simp [inBraces, absent]
    decide
  rw [List.append_assoc, decode_marker none, decode_append_of_not_mem plain, List.append_assoc]

/-- Escapes of characters are exact.  A number below 2^64 stands for its character, a larger
one for itself, and a marker that no number follows leaves the text behind it as it is. -/
theorem decode_codePoints :
    (∀ digits text, IsNumeral digits → number digits < 2 ^ 64 →
      ∃ char, IsCharacterFor (number digits) char ∧
        decode (marker ++ inBraces digits ++ text) = Utf8.encode char ++ decode text) ∧
    (∀ digits text, IsNumeral digits → 2 ^ 64 ≤ number digits →
      decode (marker ++ inBraces digits ++ text) = marker ++ inBraces digits ++ decode text) ∧
    ∀ text, ¬ BeginsBraced text → decode (marker ++ text) = marker ++ decode text := by
  refine ⟨?_, ?_, ?_⟩
  · intro digits text numeral fits
    exact ⟨_, scalar_isCharacterFor _, decode_codePoint numeral fits text⟩
  · intro digits text numeral large
    exact decode_tooLarge numeral large text
  · intro text unbraced
    apply decode_marker
    apply Option.eq_none_iff_forall_not_mem.mpr
    intro found braced
    exact unbraced (beginsBraced_of_braced? braced)

/-- The largest word is the number of no character, and the next number is no word. -/
theorem decode_codePoints_limit :
    let largest := Bytes.ascii "0fFfFffffffffffff"
    let beyond := Bytes.ascii "10000000000000000"
    let text := Bytes.ascii "\\t"
    decode (marker ++ inBraces largest ++ text) =
        Utf8.encode Utf8.replacement ++ [Byte.tab] ∧
      decode (marker ++ inBraces beyond ++ text) = marker ++ inBraces beyond ++ [Byte.tab] := by
  intro largest beyond text
  obtain ⟨below, above, -⟩ := decode_codePoints
  have largestNumeral : IsNumeral largest := ⟨by decide, by decide +kernel⟩
  have beyondNumeral : IsNumeral beyond := ⟨by decide, by decide +kernel⟩
  have tab : decode text = [Byte.tab] := by decide +kernel
  rw [← tab]
  constructor
  · obtain ⟨char, isChar, decoded⟩ := below largest text largestNumeral (by decide +kernel)
    rw [decoded, isChar.replaced (by decide +kernel)]
  · exact above beyond text beyondNumeral (by decide +kernel)

end Escape

end PageScript
