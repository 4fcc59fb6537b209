import PageScript.Literal.Value
import PageScript.Proofs.DecodedLength
import PageScript.Proofs.Utf8Text

/-!
# One step of decoding

A cursor reads the character whose encoding is at the front, whichever of all characters it
is and whatever follows it.  Where no encoding is at the front it reads one byte as the
replacement character.  So text is read as its characters, and any bytes are read to their
end in steps of one to four bytes.

`Utf8.trusting?` takes such a step the other way round.  It trusts the leading byte with the
length of the piece, asks whether that piece is well formed as a whole, and takes its first
character.  A piece that is well formed has no other.
-/

namespace PageScript.Utf8

variable {bytes : Bytes} {char : Char} {size : Nat}

/-- An encoding at the front is read, whatever follows it. -/
theorem next?_of_isPrefix (starts : encode char <+: bytes) :
    next? bytes = some (char, (encode char).length) := by
  obtain ⟨rest, rfl⟩ := starts
  have decoded := decode?_encode_append char rest
  cases encoded : encode char with
  | nil => exact absurd encoded (encode_ne_nil char)
  | cons lead run =>
      rw [encoded, List.cons_append] at decoded
      rw [List.cons_append, next?, decoded]
      rfl

/-- What is decoded is at the front. -/
theorem isPrefix_of_decode? (decoded : decode? bytes = some (char, size)) :
    encode char <+: bytes ∧ size = (encode char).length := by
  have taken := encode_eq_take_of_decode? decoded
  refine ⟨taken ▸ List.take_prefix size bytes, ?_⟩
  rw [taken, List.length_take_of_le (size_le_of_decode? decoded)]

/-- Where no encoding is at the front one byte is replaced. -/
theorem next?_of_not_isPrefix (nonempty : bytes ≠ [])
    (broken : ∀ char, ¬ encode char <+: bytes) : next? bytes = some (replacement, 1) := by
  cases bytes with
  | nil => contradiction
  | cons lead rest =>
      cases decoded : decode? (lead :: rest) with
      | none => rw [next?, decoded, Option.getD_none]
      | some pair => exact absurd (isPrefix_of_decode? decoded).1 (broken pair.1)

theorem length_encode_le_four (char : Char) : (encode char).length ≤ 4 := by
  rw [String.length_utf8EncodeChar]
  exact char.utf8Size_le_four

/-- A step takes one to four bytes, all of which are there. -/
theorem size_bounds_of_next? (read : next? bytes = some (char, size)) :
    1 ≤ size ∧ size ≤ 4 ∧ size ≤ bytes.length := by
  refine ⟨size_pos_of_next? read, ?_⟩
  cases bytes with
  | nil => contradiction
  | cons lead rest =>
      cases decoded : decode? (lead :: rest) with
      | none =>
          rw [next?, decoded] at read
          cases read
          exact ⟨by decide, Nat.succ_pos _⟩
      | some pair =>
          rw [next?, decoded] at read
          cases read
          have fits := size_le_of_decode? decoded
          have length := (isPrefix_of_decode? decoded).2
          have short := length_encode_le_four char
          omega

/-! ### Trusting the leading byte -/

/-- The first character of the piece whose length the leading byte announces, if the piece
is there and is well formed throughout. -/
def trusting? : Bytes → Option (Char × Nat)
  | [] => none
  | lead :: rest =>
      if lead < 0x80 then
        some (Char.ofNat lead.toNat, 1)
      else if announced lead = 0 then
        some (replacement, 1)
      else
        match (Bytes.slice? (lead :: rest) 0 (announced lead)).bind decodeAll? with
        | some chars => chars.head?.map (·, announced lead)
        | none => some (replacement, 1)

/-- Well-formed bytes that are as long as their leading byte announces are the encoding of
one character. -/
theorem exists_encode_of_announced {lead : UInt8} {run : Bytes} {chars : List Char}
    (decoded : decodeAll? (lead :: run) = some chars)
    (length : announced lead = (lead :: run).length) :
    ∃ char, chars = [char] ∧ encode char = lead :: run := by
  have whole := eq_encodeAll_of_decodeAll? decoded
  cases chars with
  | nil => contradiction
  | cons char chars =>
      cases encoded : encode char with
      | nil => exact absurd encoded (encode_ne_nil char)
      | cons first others =>
          rw [encodeAll_cons, encoded, List.cons_append, List.cons.injEq] at whole
          obtain ⟨rfl, rfl⟩ := whole
          rw [announced_of_encode encoded, List.length_cons, List.length_append] at length
          have ended : encodeAll chars = [] := List.length_eq_zero_iff.mp (by omega)
          cases chars with
          | nil => exact ⟨char, rfl, by rw [encoded, ended, List.append_nil]⟩
          | cons other chars =>
              rw [encodeAll_cons] at ended
              exact absurd (List.append_eq_nil_iff.mp ended).1 (encode_ne_nil other)

/-- The encoding of one character is well formed throughout. -/
theorem decodeAll?_encode (char : Char) : decodeAll? (encode char) = some [char] := by
  have decoded := decodeAll?_encodeAll [char]
  rwa [encodeAll_cons, show encodeAll [] = [] from rfl, List.append_nil] at decoded

/-- An encoding at the front is as long as its leading byte announces. -/
theorem announced_of_isPrefix {lead : UInt8} {rest : Bytes}
    (starts : encode char <+: lead :: rest) : announced lead = (encode char).length := by
  obtain ⟨tail, split⟩ := starts
  cases encoded : encode char with
  | nil => exact absurd encoded (encode_ne_nil char)
  | cons first run =>
      rw [encoded, List.cons_append, List.cons.injEq] at split
      rw [← split.1, announced_of_encode encoded, List.length_cons]

/-- A piece that is well formed throughout and as long as announced is an encoding at the
front. -/
theorem exists_isPrefix_of_slice? {lead : UInt8} {rest piece : Bytes} {chars : List Char}
    (opens : announced lead ≠ 0)
    (sliced : Bytes.slice? (lead :: rest) 0 (announced lead) = some piece)
    (decoded : decodeAll? piece = some chars) : ∃ char, encode char <+: lead :: rest := by
  obtain ⟨⟨-, inside⟩, same⟩ := Option.ite_none_right_eq_some.mp sliced
  obtain ⟨count, announces⟩ := Nat.exists_eq_succ_of_ne_zero opens
  have piece_eq : piece = lead :: rest.take count := by
    rw [← Option.some.inj same, announces, List.drop_zero, List.take_succ_cons]
  have length : announced lead = (lead :: rest.take count).length := by
    rw [announces] at inside ⊢
    rw [List.length_cons, List.length_take_of_le (Nat.le_of_succ_le_succ inside)]
  obtain ⟨char, -, encoded⟩ := exists_encode_of_announced (piece_eq ▸ decoded) length
  refine ⟨char, rest.drop count, ?_⟩
  rw [encoded, List.cons_append, List.take_append_drop]

/-- Both ways to take a step agree on all bytes. -/
theorem trusting?_eq_next? (bytes : Bytes) : trusting? bytes = next? bytes := by
  cases bytes with
  | nil => rfl
  | cons lead rest =>
      by_cases small : lead < 0x80
      · rw [trusting?, if_pos small, next?_ascii small]
      rw [trusting?, if_neg small]
      by_cases found : ∃ char, encode char <+: lead :: rest
      · obtain ⟨char, starts⟩ := found
        have announces := announced_of_isPrefix starts
        have positive := List.length_pos_iff.mpr (encode_ne_nil char)
        have sliced : Bytes.slice? (lead :: rest) 0 (announced lead) = some (encode char) := by
          rw [announces, Bytes.slice?_of_le (Nat.zero_le _) starts.length_le, List.drop_zero,
            ← List.prefix_iff_eq_take.mp starts]
        rw [if_neg (by omega), sliced, Option.bind_some, decodeAll?_encode, announces,
          next?_of_isPrefix starts]
        rfl
      · have broken := not_exists.mp found
        rw [next?_of_not_isPrefix (List.cons_ne_nil lead rest) broken]
        split
        · rfl
        · next opens =>
            split
            · next chars decoded =>
                obtain ⟨piece, sliced, decoded⟩ := Option.bind_eq_some_iff.mp decoded
                exact absurd (exists_isPrefix_of_slice? opens sliced decoded) found
            · rfl

/-! ### All steps -/

/-- The characters read step by step, each with the number of bytes it takes. -/
def readings (bytes : Bytes) : List (Char × Nat) :=
  match _read : next? bytes with
  | none => []
  | some (char, size) => (char, size) :: readings (bytes.drop size)
  termination_by bytes.length
  decreasing_by exact length_drop_lt_of_next? _read

theorem readings_of_next? (read : next? bytes = some (char, size)) :
    readings bytes = (char, size) :: readings (bytes.drop size) := by
  rw [readings.eq_def]
  split
  · next ended => exact absurd (ended.symm.trans read) (by simp)
  · next same =>
      cases same.symm.trans read
      rfl

/-- A text is read as its characters. -/
theorem readings_encodeAll (chars : List Char) :
    readings (encodeAll chars) = chars.map fun char => (char, (encode char).length) := by
  induction chars with
  | nil =>
      rw [readings.eq_def]
      rfl
  | cons char chars ih =>
      have starts : encode char <+: encodeAll (char :: chars) := List.prefix_append _ _
      rw [readings_of_next? (next?_of_isPrefix starts), encodeAll_cons, List.drop_left, ih,
        List.map_cons]

theorem bounds_of_mem_readings (bytes : Bytes) :
    ∀ reading ∈ readings bytes, 1 ≤ reading.2 ∧ reading.2 ≤ 4 := by
  fun_induction readings bytes with
  | case1 => simp
  | case2 bytes char size read ih =>
      have bounds := size_bounds_of_next? read
      exact List.forall_mem_cons.mpr ⟨⟨bounds.1, bounds.2.1⟩, ih⟩

/-- Any bytes are read to their end. -/
theorem sum_readings (bytes : Bytes) : ((readings bytes).map (·.2)).sum = bytes.length := by
  fun_induction readings bytes with
  | case1 bytes ended =>
      cases eq_nil_of_next? ended
      rfl
  | case2 bytes char size read ih =>
      have fits := (size_bounds_of_next? read).2.2
      rw [List.map_cons, List.sum_cons, ih, List.length_drop, Nat.add_sub_cancel' fits]

/-- A value to which one character after the other is appended is the text of them. -/
theorem foldl_pushChar (chars : List Char) (value : Bytes) :
    chars.foldl Bytes.pushChar value = value ++ encodeAll chars := by
  induction chars generalizing value with
  | nil => rw [List.foldl_nil, show encodeAll [] = [] from rfl, List.append_nil]
  | cons char chars ih =>
      rw [List.foldl_cons, ih, Bytes.pushChar, encodeAll_cons, List.append_assoc]

/-- One step reads the character whose encoding is at the front, and one replaced byte where
there is none, and does what trusting the leading byte does.  So a text comes back as its
characters, and any bytes are read to their end in steps of one to four bytes. -/
theorem next?_decodesOne :
    (∀ bytes ≠ [],
      (∀ char, encode char <+: bytes → next? bytes = some (char, (encode char).length)) ∧
      ((∀ char, ¬ encode char <+: bytes) → next? bytes = some (replacement, 1))) ∧
    (∀ bytes, trusting? bytes = next? bytes) ∧
    (∀ chars, chars.foldl Bytes.pushChar [] = encodeAll chars ∧
      readings (encodeAll chars) = chars.map fun char => (char, (encode char).length)) ∧
    ∀ bytes, (∀ reading ∈ readings bytes, 1 ≤ reading.2 ∧ reading.2 ≤ 4) ∧
      ((readings bytes).map (·.2)).sum = bytes.length := by
  refine ⟨fun bytes nonempty => ⟨fun char => next?_of_isPrefix, next?_of_not_isPrefix nonempty⟩,
    trusting?_eq_next?, fun chars => ⟨?_, readings_encodeAll chars⟩, fun bytes =>
      ⟨bounds_of_mem_readings bytes, sum_readings bytes⟩⟩
  rw [foldl_pushChar, List.nil_append]

/-- A character of three bytes, and the first two of them before another character. -/
theorem next?_decodesOne_truncated :
    let whole : Bytes := [0xE2, 0x82, 0xAC, 0x41]
    let truncated : Bytes := [0xE2, 0x82, 0x41]
    (whole ≠ [] ∧ encode '€' <+: whole ∧ next? whole = some ('€', (encode '€').length)) ∧
      truncated ≠ [] ∧ (∀ char, ¬ encode char <+: truncated) ∧
      next? truncated = some (replacement, 1) := by
  intro whole truncated
  have broken : ∀ char, ¬ encode char <+: truncated := by
    intro char starts
    have three : (encode char).length = 3 := (announced_of_isPrefix starts).symm
    have read : some (char, (encode char).length) = some (replacement, 1) :=
      (next?_of_isPrefix starts).symm.trans (by decide)
    rw [three] at read
    exact absurd (Option.some.inj read) (by simp)
  have opens : encode '€' <+: whole := by decide
  exact ⟨⟨by decide, opens, (next?_decodesOne.1 whole (by decide)).1 '€' opens⟩, by decide,
    broken, (next?_decodesOne.1 truncated (by decide)).2 broken⟩

end PageScript.Utf8
