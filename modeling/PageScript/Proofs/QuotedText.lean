import PageScript.Proofs.CodePoints
import PageScript.Proofs.Utf8Text
import PageScript.Text.Quoted

/-!
# Reading back a quoted text

The escapes of a quoted text are escapes of strings with variables, so what stands between
its quotes decodes to the text.  Two texts are therefore never quoted alike.  A line feed is
one of the characters that are escaped, so a quoted text stands on one line.
-/

namespace PageScript

namespace Hex

variable {value : Nat} {char : Char}

theorem natChars_of_lt (small : value < 16) : natChars value = [Nat.digitChar value] :=
  Nat.toDigits_of_lt_base small

/-- The last digit is written last. -/
theorem natChars_of_le (large : 16 ≤ value) :
    natChars value = natChars (value / 16) ++ [Nat.digitChar (value % 16)] :=
  Nat.toDigits_of_base_le (by decide) large

/-- Numbers are written in digits of lower case. -/
theorem exists_digit_of_mem_natChars (member : char ∈ natChars value) :
    ∃ digit < 16, char = Nat.digitChar digit := by
  induction value using Nat.strongRecOn with
  | ind value ih =>
      by_cases small : value < 16
      · rw [natChars_of_lt small, List.mem_singleton] at member
        exact ⟨value, small, member⟩
      · have large := Nat.not_lt.mp small
        rw [natChars_of_le large, List.mem_append, List.mem_singleton] at member
        rcases member with before | rfl
        · exact ih _ (by omega) before
        · exact ⟨_, Nat.mod_lt _ (by decide), rfl⟩

theorem toNat_lt_of_mem_natChars (member : char ∈ natChars value) : char.toNat < 0x80 := by
  obtain ⟨digit, small, rfl⟩ := exists_digit_of_mem_natChars member
  have all : ∀ digit < 16, (Nat.digitChar digit).toNat < 0x80 := by decide
  exact all digit small

/-- A number, in the digits that it is written with. -/
def natDigits (value : Nat) : Bytes :=
  (natChars value).map Byte.ofChar

theorem natDigits_isNumeral (value : Nat) : IsNumeral (natDigits value) where
  nonempty := mt List.map_eq_nil_iff.mp Nat.toDigits_ne_nil
  members := by
    have all : ∀ digit < 16, Byte.isHexDigit (Byte.ofChar (Nat.digitChar digit)) := by decide
    intro byte member
    obtain ⟨char, written, rfl⟩ := List.mem_map.mp member
    obtain ⟨digit, small, rfl⟩ := exists_digit_of_mem_natChars written
    exact all digit small

theorem number_concat (digits : Bytes) (byte : UInt8) :
    number (digits ++ [byte]) = number digits * 16 + digit byte := by
  simp only [number, List.map_append, List.map_cons, List.map_nil, List.reverse_append,
    List.reverse_cons, List.reverse_nil, List.nil_append, List.singleton_append, Nat.ofDigits_cons]
  rw [Nat.add_comm, Nat.mul_comm]

/-- The digits that a number is written with spell it. -/
theorem number_natDigits (value : Nat) : number (natDigits value) = value := by
  have spelled : ∀ value < 16, digit (Byte.ofChar (Nat.digitChar value)) = value := by decide
  induction value using Nat.strongRecOn with
  | ind value ih =>
      by_cases small : value < 16
      · rw [natDigits, natChars_of_lt small, List.map_singleton]
        simpa [number] using spelled value small
      · have large := Nat.not_lt.mp small
        have last := spelled (value % 16) (Nat.mod_lt _ (by decide))
        have before := ih (value / 16) (by omega)
        rw [natDigits] at before ⊢
        rw [natChars_of_le large, List.map_append, List.map_singleton, number_concat, before, last,
          Nat.div_add_mod']

end Hex

namespace Utf8

theorem encodeAll_ascii {chars : List Char} (small : ∀ char ∈ chars, char.toNat < 0x80) :
    encodeAll chars = chars.map Byte.ofChar := by
  induction chars with
  | nil => rfl
  | cons char chars ih =>
      obtain ⟨here, others⟩ := List.forall_mem_cons.mp small
      rw [encodeAll_cons, encode_ascii here, ih others]
      rfl

/-- The bytes beyond ASCII are no backslash. -/
theorem backslash_not_mem_encode {char : Char} (other : char ≠ '\\') :
    Byte.backslash ∉ encode char := by
  by_cases small : char.toNat < 0x80
  · rw [encode_ascii small, List.mem_singleton]
    intro same
    have code := congrArg UInt8.toNat same
    rw [UInt8.toNat_ofNat_of_lt' (Nat.lt_trans small (by decide))] at code
    exact other (Char.toNat_inj.mp code.symm)
  · intro member
    have beyond := isBeyondAscii_encode (Nat.not_lt.mp small) _ member
    exact absurd beyond (by decide)

end Utf8

namespace Text

/-- How a character is written: with the letter of an escape, as itself, or by its number. -/
inductive IsWritten (char : Char) : List Char → Prop where
  | letter {letter : Char} :
      letter.toNat < 0x80 → letter ≠ '\n' → char.toNat < 0x80 →
      Escape.letter? (Byte.ofChar letter) = some (Byte.ofChar char) →
      IsWritten char ['\\', letter]
  | visible : char ≠ '\\' → char ≠ '\n' → IsWritten char [char]
  | number : IsWritten char (['\\', 'u', '\x7b'] ++ Hex.natChars char.toNat ++ ['\x7d'])

theorem writeChar_isWritten (char : Char) : IsWritten char (writeChar char) := by
  unfold writeChar
  split
  · next same =>
      subst same
      exact .letter (by decide) (by decide) (by decide) rfl
  split
  · next same =>
      subst same
      exact .letter (by decide) (by decide) (by decide) rfl
  split
  · next same =>
      subst same
      exact .letter (by decide) (by decide) (by decide) rfl
  split
  · next same =>
      subst same
      exact .letter (by decide) (by decide) (by decide) rfl
  split
  · next same =>
      subst same
      exact .letter (by decide) (by decide) (by decide) rfl
  split
  · next same =>
      subst same
      exact .letter (by decide) (by decide) (by decide) rfl
  split
  · next notBackslash _ notLineFeed _ _ _ => exact .visible notBackslash notLineFeed
  · exact .number

namespace IsWritten

variable {char : Char} {text : List Char}

/-- A written character is read back, whatever follows. -/
theorem decode_append (written : IsWritten char text) (rest : Bytes) :
    Escape.decode (Utf8.encodeAll text ++ rest) = Utf8.encode char ++ Escape.decode rest := by
  cases written with
  | @letter letter small _ ascii read =>
      have bytes : Utf8.encodeAll ['\\', letter] = [Byte.backslash, Byte.ofChar letter] :=
        Utf8.encodeAll_ascii (by simpa using small)
      have found : Escape.escape? (Byte.ofChar letter :: rest) = some ([Byte.ofChar char], 1) := by
        simp [Escape.escape?, read]
      rw [bytes, Utf8.encode_ascii ascii]
      exact Escape.decode_of_escape found
  | visible other =>
      rw [Utf8.encodeAll_cons, Utf8.encodeAll, List.flatMap_nil, List.append_nil]
      exact Escape.decode_append_of_not_mem (Utf8.backslash_not_mem_encode other) rest
  | number =>
      have code : char.toNat < 2 ^ 32 := char.val.toNat_lt
      have low : Escape.scalar char.toNat = char := by
        have valid : char.toNat.isValidChar := char.valid
        rw [Escape.scalar_eq, Nat.mod_eq_of_lt code, if_pos valid]
        exact Char.ofNat_toNat char
      have bytes : Utf8.encodeAll (['\\', 'u', '\x7b'] ++ Hex.natChars char.toNat ++ ['\x7d']) =
          Escape.marker ++ Escape.inBraces (Hex.natDigits char.toNat) := by
        rw [Utf8.encodeAll_append, Utf8.encodeAll_append,
          Utf8.encodeAll_ascii fun _ => Hex.toNat_lt_of_mem_natChars]
        simp [Escape.inBraces, Hex.natDigits]
        rfl
      rw [bytes, Escape.decode_codePoint (Hex.natDigits_isNumeral _), Hex.number_natDigits, low]
      rw [Hex.number_natDigits]
      exact Nat.lt_trans code (by decide)

theorem lineFeed_not_mem (written : IsWritten char text) : '\n' ∉ text := by
  cases written with
  | letter _ other => simp [other.symm]
  | visible _ other => simp [other.symm]
  | number =>
      have absent : '\n' ∉ Hex.natChars char.toNat := by
        have all : ∀ digit < 16, '\n' ≠ Nat.digitChar digit := by decide
        intro member
        obtain ⟨digit, small, same⟩ := Hex.exists_digit_of_mem_natChars member
        exact all digit small same
      simp [absent]

end IsWritten

/-- What stands between the quotes decodes to the text. -/
theorem decode_quotedBody (chars : List Char) :
    Escape.decode (Utf8.encodeAll (chars.flatMap writeChar)) = Utf8.encodeAll chars := by
  induction chars with
  | nil => simp [Utf8.encodeAll, Escape.decode]
  | cons char chars ih =>
      rw [List.flatMap_cons, Utf8.encodeAll_append, (writeChar_isWritten char).decode_append, ih,
        Utf8.encodeAll_cons]

theorem toList_quoted (text : String) :
    (quoted text).toList = '"' :: (text.toList.flatMap writeChar ++ ['"']) := by
  simp [quoted]

/-- Quoting loses nothing. -/
theorem quoted_injective {text other : String} (same : quoted text = quoted other) :
    text = other := by
  have chars := congrArg String.toList same
  rw [toList_quoted, toList_quoted, List.cons_inj_right, List.append_cancel_right_eq] at chars
  apply Utf8.ofString_injective
  rw [Utf8.ofString, Utf8.ofString, ← decode_quotedBody, chars, decode_quotedBody]

/-- A quoted text stands on one line. -/
theorem lineFeed_not_mem_quoted (text : String) : '\n' ∉ (quoted text).toList := by
  rw [toList_quoted]
  intro member
  simp only [List.mem_cons, List.mem_append, List.not_mem_nil, or_false] at member
  rcases member with quote | body | quote
  · contradiction
  · obtain ⟨char, -, written⟩ := List.mem_flatMap.mp body
    exact (writeChar_isWritten char).lineFeed_not_mem written
  · contradiction

end Text

end PageScript
