import PageScript.Proofs.Encoding
import PageScript.Proofs.Runs

/-!
# Well-formed text

Decoding gives back what was encoded, and bytes that are decoded are an encoding, so the
well-formed bytes are the encodings of characters.  On them nothing is replaced.

Text can be cut wherever the byte on one side of the cut is an ASCII byte: such a byte is a
character of its own.  `Utf8.IsSeam` is that condition on a cut.
-/

namespace PageScript.Utf8

theorem toNat_ofNat_byte {code : Nat} (fits : code < 0x100) :
    (UInt8.ofNat code).toNat = code :=
  UInt8.toNat_ofNat_of_lt' fits

/-- The payload bits of an encoding are those of its character. -/
theorem candidate_encode (char : Char) : candidate (encode char) = char := by
  have last := toNat_val_lt char
  have back : Char.ofNat char.val.toNat = char := Char.ofNat_toNat char
  simp only [encode, String.utf8EncodeChar]
  -- the marker bits are multiples of the payload's modulus
  repeat' split
  all_goals simp only [candidate]
  · rw [toNat_ofNat_byte (by omega)]
    exact back
  · rw [toNat_ofNat_byte (by omega), toNat_ofNat_byte (by omega)]
    refine (congrArg Char.ofNat ?_).trans back
    omega
  · rw [toNat_ofNat_byte (by omega), toNat_ofNat_byte (by omega), toNat_ofNat_byte (by omega)]
    refine (congrArg Char.ofNat ?_).trans back
    omega
  · rw [toNat_ofNat_byte (by omega), toNat_ofNat_byte (by omega), toNat_ofNat_byte (by omega),
      toNat_ofNat_byte (by omega)]
    refine (congrArg Char.ofNat ?_).trans back
    omega

/-- An encoding at the front is decoded, whatever follows it. -/
theorem decode?_encode_append (char : Char) (rest : Bytes) :
    decode? (encode char ++ rest) = some (char, (encode char).length) := by
  cases encoded : encode char with
  | nil => exact absurd encoded (encode_ne_nil char)
  | cons lead run =>
      have size : announced lead = (lead :: run).length := announced_of_encode encoded
      have sequence : (lead :: (run ++ rest)).take (lead :: run).length = encode char := by
        rw [encoded, ← List.cons_append, List.take_left]
      rw [List.cons_append, decode?]
      simp only [size, sequence, candidate_encode, if_true]

theorem encodeAll_cons (char : Char) (chars : List Char) :
    encodeAll (char :: chars) = encode char ++ encodeAll chars := rfl

theorem encodeAll_append (front back : List Char) :
    encodeAll (front ++ back) = encodeAll front ++ encodeAll back :=
  List.flatMap_append

theorem ofString_append (front back : String) :
    ofString (front ++ back) = ofString front ++ ofString back := by
  rw [ofString, String.toList_append, encodeAll_append]
  rfl

/-- The first of several characters is decoded, and the others are left. -/
theorem exists_cons_of_encodeAll (char : Char) (chars : List Char) :
    ∃ lead rest size, encodeAll (char :: chars) = lead :: rest ∧
      decode? (lead :: rest) = some (char, size) ∧ rest.drop (size - 1) = encodeAll chars := by
  have decoded := decode?_encode_append char (encodeAll chars)
  rw [encodeAll_cons]
  cases encoded : encode char with
  | nil => exact absurd encoded (encode_ne_nil char)
  | cons lead run =>
      rw [encoded, List.cons_append] at decoded
      refine ⟨lead, run ++ encodeAll chars, _, rfl, decoded, ?_⟩
      rw [List.length_cons, Nat.add_sub_cancel, List.drop_left]

/-- What is encoded is decoded. -/
theorem decodeAll?_encodeAll (chars : List Char) : decodeAll? (encodeAll chars) = some chars := by
  induction chars with
  | nil => simp [encodeAll, decodeAll?]
  | cons char chars ih =>
      obtain ⟨lead, rest, size, split, decoded, left⟩ := exists_cons_of_encodeAll char chars
      rw [split, decodeAll?, decoded]
      simp only [left, ih, Option.map_some]

/-- What is decoded was encoded. -/
theorem eq_encodeAll_of_decodeAll? {bytes : Bytes} {chars : List Char}
    (decoded : decodeAll? bytes = some chars) : bytes = encodeAll chars := by
  fun_induction decodeAll? bytes generalizing chars with
  | case1 =>
      cases decoded
      rfl
  | case2 => contradiction
  | case3 lead rest char size found ih =>
      obtain ⟨later, inRest, rfl⟩ := Option.map_eq_some_iff.mp decoded
      have front := encode_eq_take_of_decode? found
      have positive := size_pos_of_decode? found
      obtain ⟨count, rfl⟩ := Nat.exists_eq_succ_of_ne_zero (Nat.ne_of_gt positive)
      rw [encodeAll_cons, front, ← ih inRest, List.take_succ_cons, Nat.succ_sub_one,
        List.cons_append, List.take_append_drop]

/-- The well-formed bytes are those of strings. -/
theorem text?_eq_some_iff {bytes : Bytes} {text : String} :
    text? bytes = some text ↔ bytes = ofString text := by
  constructor
  · intro decoded
    obtain ⟨chars, found, rfl⟩ := Option.map_eq_some_iff.mp decoded
    rw [ofString, String.toList_ofList]
    exact eq_encodeAll_of_decodeAll? found
  · rintro rfl
    rw [text?, ofString, decodeAll?_encodeAll, Option.map_some, String.ofList_toList]

theorem ofString_injective {text other : String} (same : ofString text = ofString other) :
    text = other := by
  have decoded := text?_eq_some_iff.mpr same
  rw [text?_eq_some_iff.mpr rfl] at decoded
  exact Option.some.inj decoded

theorem lossyChars_encodeAll (chars : List Char) : lossyChars (encodeAll chars) = chars := by
  induction chars with
  | nil => simp [encodeAll, lossyChars]
  | cons char chars ih =>
      obtain ⟨lead, rest, size, split, decoded, left⟩ := exists_cons_of_encodeAll char chars
      rw [split, lossyChars, decoded]
      simp only [left, ih]

/-- In well-formed bytes nothing is replaced. -/
theorem lossy_ofString (text : String) : lossy (ofString text) = text := by
  rw [lossy, ofString, lossyChars_encodeAll, String.ofList_toList]

/-- Bytes that encode some text. -/
def IsText (bytes : Bytes) : Prop :=
  ∃ chars, bytes = encodeAll chars

theorem isText_nil : IsText [] := ⟨[], rfl⟩

theorem isText_ofString (text : String) : IsText (ofString text) := ⟨text.toList, rfl⟩

theorem IsText.append {front back : Bytes} (first : IsText front) (second : IsText back) :
    IsText (front ++ back) := by
  obtain ⟨chars, rfl⟩ := first
  obtain ⟨others, rfl⟩ := second
  exact ⟨chars ++ others, (encodeAll_append chars others).symm⟩

theorem IsText.exists_string {bytes : Bytes} (isText : IsText bytes) :
    ∃ text, bytes = ofString text := by
  obtain ⟨chars, rfl⟩ := isText
  exact ⟨String.ofList chars, by rw [ofString, String.toList_ofList]⟩

theorem isText_of_ascii {bytes : Bytes} (ascii : ∀ byte ∈ bytes, byte < 0x80) :
    IsText bytes := by
  induction bytes with
  | nil => exact isText_nil
  | cons byte rest ih =>
      obtain ⟨small, others⟩ := List.forall_mem_cons.mp ascii
      have first : IsText [byte] :=
        ⟨[Char.ofNat byte.toNat], by rw [encodeAll_cons, encode_ofNat small]; rfl⟩
      exact first.append (ih others)

/-- The text of well-formed bytes has the same bytes. -/
theorem IsText.ofString_lossy {bytes : Bytes} (isText : IsText bytes) :
    ofString (lossy bytes) = bytes := by
  obtain ⟨text, rfl⟩ := isText.exists_string
  rw [lossy_ofString]

/-- A cut between two pieces next to which an ASCII byte stands, or nothing. -/
def IsSeam (front back : Bytes) : Prop :=
  (∀ byte ∈ front.getLast?, byte < 0x80) ∨ ∀ byte ∈ back.head?, byte < 0x80

namespace IsSeam

variable {front back : Bytes} {byte : UInt8}

theorem nil_right (front : Bytes) : IsSeam front [] := .inr (by simp)

/-- Behind an ASCII byte any piece ends. -/
theorem of_last (small : byte < 0x80) (front back : Bytes) : IsSeam (front ++ [byte]) back :=
  .inl (by simpa using small)

/-- Before an ASCII byte any piece ends. -/
theorem of_next (small : byte < 0x80) (front back : Bytes) : IsSeam front (byte :: back) :=
  .inr (by simpa using small)

theorem of_ascii (small : ∀ byte ∈ front, byte < 0x80) (back : Bytes) : IsSeam front back :=
  .inl fun byte last => small byte (List.mem_of_getLast? last)

/-- What follows a name does. -/
theorem of_not_isNamePart (stops : ¬ back.startsWhere Byte.isNamePart) (front : Bytes) :
    IsSeam front back := by
  cases back with
  | nil => exact nil_right front
  | cons byte back =>
      refine of_next (UInt8.not_le.mp fun large => stops ?_) front back
      simp [Byte.isNamePart, Byte.isNameStart, large]

/-- Fewer bytes before the cut make no difference. -/
theorem of_append {more : Bytes} (seam : IsSeam (more ++ front) back) : IsSeam front back := by
  rcases seam with last | next
  · refine .inl fun byte found => last byte ?_
    simp [List.getLast?_append, Option.mem_def.mp found]
  · exact .inr next

end IsSeam

/-- A cut inside the encoding of a character is no seam. -/
theorem not_isSeam_of_encode {char : Char} {front back : Bytes} (rest : Bytes)
    (split : encode char = front ++ back) (before : front ≠ []) (behind : back ≠ []) :
    ¬ IsSeam front (back ++ rest) := by
  have beyond : IsBeyondAscii (encode char) := by
    refine isBeyondAscii_encode (Nat.not_lt.mp fun small => ?_)
    have length := congrArg List.length (split.symm.trans (encode_ascii small))
    have one := List.length_pos_iff.mpr before
    have other := List.length_pos_iff.mpr behind
    simp only [List.length_append, List.length_cons, List.length_nil] at length
    omega
  rw [split] at beyond
  rintro (last | next)
  · obtain ⟨byte, found⟩ := Option.ne_none_iff_exists'.mp (mt List.getLast?_eq_none_iff.mp before)
    have member := List.mem_append_left back (List.mem_of_getLast? found)
    exact UInt8.not_lt.mpr (beyond byte member) (last byte found)
  · obtain ⟨byte, tail, rfl⟩ := List.exists_cons_of_ne_nil behind
    have member : byte ∈ front ++ byte :: tail := List.mem_append_right front List.mem_cons_self
    exact UInt8.not_lt.mpr (beyond byte member) (next byte rfl)

/-- At a seam text comes apart into text. -/
theorem IsText.split {front back : Bytes} (isText : IsText (front ++ back))
    (seam : IsSeam front back) : IsText front ∧ IsText back := by
  obtain ⟨chars, whole⟩ := isText
  induction chars generalizing front with
  | nil =>
      obtain ⟨rfl, rfl⟩ := List.append_eq_nil_iff.mp whole
      exact ⟨isText_nil, isText_nil⟩
  | cons char chars ih =>
      rw [encodeAll_cons] at whole
      rcases List.append_eq_append_iff.mp whole with ⟨inside, split, rfl⟩ | ⟨later, rfl, rest⟩
      · by_cases before : front = []
        · subst before
          exact ⟨isText_nil, char :: chars, by rw [encodeAll_cons, split, List.nil_append]⟩
        · by_cases behind : inside = []
          · subst behind
            exact ⟨⟨[char], by simp [encodeAll, split]⟩, chars, rfl⟩
          · exact absurd seam (not_isSeam_of_encode _ split before behind)
      · obtain ⟨⟨others, rfl⟩, isText⟩ := ih seam.of_append rest.symm
        exact ⟨⟨char :: others, rfl⟩, isText⟩

end PageScript.Utf8
