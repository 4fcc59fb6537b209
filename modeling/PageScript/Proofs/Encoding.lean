import PageScript.Utf8

/-!
# Encodings and ASCII

A character that is read is one ASCII byte or several bytes outside of ASCII.  The
marker bits see to that: every byte of a longer encoding has its top bit set, and so
has a byte that encodes nothing.
-/

namespace PageScript

theorem Byte.toNat_ofChar {char : Char} (small : char.toNat < 0x80) :
    (Byte.ofChar char).toNat = char.toNat :=
  UInt8.toNat_ofNat_of_lt' (Nat.lt_trans small (by decide))

namespace Utf8

/-- No byte is an ASCII byte. -/
def IsBeyondAscii (bytes : Bytes) : Prop :=
  ∀ byte ∈ bytes, 0x80 ≤ byte

theorem isBeyondAscii_cons {byte : UInt8} {rest : Bytes} :
    IsBeyondAscii (byte :: rest) ↔ 0x80 ≤ byte ∧ IsBeyondAscii rest :=
  List.forall_mem_cons

theorem ne_of_beyond {byte special : UInt8} (large : 0x80 ≤ byte) (small : special < 0x80) :
    byte ≠ special := by
  rintro rfl
  exact UInt8.not_lt.mpr large small

theorem le_ofNat {code : Nat} (large : 0x80 ≤ code) (fits : code < 0x100) :
    0x80 ≤ UInt8.ofNat code := by
  rw [UInt8.le_iff_toNat_le, UInt8.toNat_ofNat_of_lt' fits]
  exact large

/-- The encoding of a character outside of ASCII has no ASCII byte. -/
theorem isBeyondAscii_encode {char : Char} (large : 0x80 ≤ char.toNat) :
    IsBeyondAscii (encode char) := by
  have notSingle : ¬ char.val.toNat ≤ 0x7f := Nat.not_le.mpr large
  simp only [encode, String.utf8EncodeChar, if_neg notSingle]
  -- the marker bits of every byte are added to a payload below 64
  repeat' split
  all_goals
    intro byte member
    simp only [List.mem_cons, List.not_mem_nil, or_false] at member
  · rcases member with rfl | rfl <;> exact le_ofNat (by omega) (by omega)
  · rcases member with rfl | rfl | rfl <;> exact le_ofNat (by omega) (by omega)
  · rcases member with rfl | rfl | rfl | rfl <;> exact le_ofNat (by omega) (by omega)

/-- The encoding of an ASCII character is its code. -/
theorem encode_ascii {char : Char} (small : char.toNat < 0x80) :
    encode char = [UInt8.ofNat char.toNat] := by
  have single : char.val.toNat ≤ 0x7f := Nat.le_of_lt_succ small
  simp only [encode, String.utf8EncodeChar, if_pos single]
  rfl

theorem announced_ofNat {code : Nat} (fits : code < 0x100) :
    announced (UInt8.ofNat code) =
      if code < 0x80 then 1
      else if code < 0xC2 then 0
      else if code < 0xE0 then 2
      else if code < 0xF0 then 3
      else if code < 0xF5 then 4
      else 0 := by
  simp only [announced, UInt8.lt_iff_toNat_lt, UInt8.toNat_ofNat_of_lt' fits]
  rfl

theorem toNat_val_lt (char : Char) : char.val.toNat < 0x110000 := by
  have valid := char.valid
  unfold UInt32.isValidChar Nat.isValidChar at valid
  omega

/-- The leading byte of an encoding announces its length. -/
theorem announced_of_encode {char : Char} {lead : UInt8} {rest : Bytes}
    (encoded : encode char = lead :: rest) : announced lead = rest.length + 1 := by
  have last := toNat_val_lt char
  simp only [encode, String.utf8EncodeChar] at encoded
  repeat' split at encoded
  all_goals
    injection encoded with first others
    rw [← first, ← others, announced_ofNat (by omega)]
    repeat' split
    all_goals first | rfl | omega

/-- Decoding takes bytes that are there. -/
theorem size_le_of_decode? {bytes : Bytes} {char : Char} {size : Nat}
    (decoded : decode? bytes = some (char, size)) : size ≤ bytes.length := by
  have taken := encode_eq_take_of_decode? decoded
  have positive := size_pos_of_decode? decoded
  cases bytes with
  | nil => contradiction
  | cons lead rest =>
      have announces : size = announced lead := by
        simp only [decode?, Option.ite_none_right_eq_some, Option.some.injEq,
          Prod.mk.injEq] at decoded
        exact decoded.2.2.symm
      obtain ⟨count, rfl⟩ := Nat.exists_eq_succ_of_ne_zero (Nat.ne_of_gt positive)
      have length := announced_of_encode (taken.trans List.take_succ_cons)
      rw [← announces, List.length_take] at length
      simp only [List.length_cons]
      omega

theorem toNat_ofNat {byte : UInt8} (small : byte < 0x80) :
    (Char.ofNat byte.toNat).toNat = byte.toNat := by
  have code : byte.toNat < 0x80 := UInt8.lt_iff_toNat_lt.mp small
  have valid : byte.toNat.isValidChar := Or.inl (by omega)
  rw [Char.ofNat, dif_pos valid]
  rfl

theorem eq_nil_of_next? {bytes : Bytes} (ended : next? bytes = none) : bytes = [] := by
  cases bytes with
  | nil => rfl
  | cons lead rest => contradiction

/-- The character of an ASCII byte is encoded as that byte. -/
theorem encode_ofNat {byte : UInt8} (small : byte < 0x80) :
    encode (Char.ofNat byte.toNat) = [byte] := by
  have code := toNat_ofNat small
  rw [encode_ascii (code.symm ▸ UInt8.lt_iff_toNat_lt.mp small), code, UInt8.ofNat_toNat]

theorem decode?_ascii {lead : UInt8} (small : lead < 0x80) (rest : Bytes) :
    decode? (lead :: rest) = some (Char.ofNat lead.toNat, 1) := by
  have one : announced lead = 1 := if_pos small
  simp only [decode?, one, List.take_succ_cons, List.take_zero, candidate, encode_ofNat small,
    if_true]

/-- An ASCII byte is read as the character of its code. -/
theorem next?_ascii {lead : UInt8} (small : lead < 0x80) (rest : Bytes) :
    next? (lead :: rest) = some (Char.ofNat lead.toNat, 1) := by
  rw [next?, decode?_ascii small]
  rfl

/-- A character that begins with no ASCII byte is outside of ASCII. -/
theorem le_toNat_of_encode {char : Char} {lead : UInt8} {rest : Bytes}
    (encoded : encode char = lead :: rest) (large : 0x80 ≤ lead) : 0x80 ≤ char.toNat := by
  apply Nat.not_lt.mp
  intro small
  rw [encode_ascii small] at encoded
  injection encoded with same
  have code : (UInt8.ofNat char.toNat).toNat = char.toNat := Byte.toNat_ofChar small
  rw [← same, UInt8.le_iff_toNat_le, code] at large
  exact Nat.not_le.mpr small large

/-- A character at the front: one ASCII byte, or bytes outside of ASCII only. -/
inductive IsRead : Bytes → Char → Nat → Prop where
  | ascii {lead : UInt8} (rest : Bytes) (small : lead < 0x80) :
      IsRead (lead :: rest) (Char.ofNat lead.toNat) 1
  | beyond {char : Char} {lead : UInt8} {run : Bytes} (rest : Bytes)
      (all : IsBeyondAscii (lead :: run)) (outside : 0x80 ≤ char.toNat) :
      IsRead (lead :: run ++ rest) char (run.length + 1)

/-- A byte that encodes nothing is read as a character outside of ASCII too. -/
theorem isRead_beyond {lead : UInt8} {rest : Bytes} {char : Char} {size : Nat}
    (large : 0x80 ≤ lead) (read : next? (lead :: rest) = some (char, size)) :
    IsRead (lead :: rest) char size := by
  simp only [next?, Option.some.injEq] at read
  cases decoded : decode? (lead :: rest) with
  | none =>
      rw [decoded] at read
      cases read
      have alone : IsBeyondAscii [lead] := isBeyondAscii_cons.mpr ⟨large, List.forall_mem_nil _⟩
      exact .beyond rest alone (by decide)
  | some pair =>
      rw [decoded] at read
      cases read
      have taken := encode_eq_take_of_decode? decoded
      obtain ⟨count, rfl⟩ :=
        Nat.exists_eq_succ_of_ne_zero (Nat.ne_of_gt (size_pos_of_decode? decoded))
      rw [List.take_succ_cons] at taken
      have outside := le_toNat_of_encode taken large
      have there : count ≤ rest.length := Nat.le_of_succ_le_succ (size_le_of_decode? decoded)
      have front := IsRead.beyond (rest.drop count) (taken ▸ isBeyondAscii_encode outside) outside
      rwa [List.cons_append, List.take_append_drop, List.length_take_of_le there] at front

theorem isRead_of_next? {bytes : Bytes} {char : Char} {size : Nat}
    (read : next? bytes = some (char, size)) : IsRead bytes char size := by
  cases bytes with
  | nil => contradiction
  | cons lead rest =>
      by_cases small : lead < 0x80
      · rw [next?_ascii small] at read
        cases read
        exact .ascii rest small
      · exact isRead_beyond (UInt8.not_lt.mp small) read

/-- An ASCII character is read exactly where its byte is at the front. -/
theorem IsRead.eq_iff {lead : UInt8} {rest : Bytes} {char : Char} {size : Nat}
    (read : IsRead (lead :: rest) char size) (code : UInt8) (small : code < 0x80) :
    char = Char.ofNat code.toNat ↔ lead = code := by
  have codeSmall : code.toNat < 0x80 := UInt8.lt_iff_toNat_lt.mp small
  cases read with
  | ascii rest ascii =>
      constructor
      · intro same
        have codes := congrArg Char.toNat same
        rw [toNat_ofNat ascii, toNat_ofNat small] at codes
        exact UInt8.toNat_inj.mp codes
      · intro same
        rw [same]
  | beyond rest all outside =>
      constructor
      · intro same
        rw [same, toNat_ofNat small] at outside
        exact absurd outside (Nat.not_le.mpr codeSmall)
      · intro same
        exact absurd (same ▸ (isBeyondAscii_cons.mp all).1) (UInt8.not_le.mpr small)

/-- An ASCII character takes the one byte of its code. -/
theorem exists_cons_of_next? {bytes : Bytes} {size : Nat} (code : UInt8) (small : code < 0x80)
    (read : next? bytes = some (Char.ofNat code.toNat, size)) :
    ∃ rest, bytes = code :: rest ∧ size = 1 := by
  cases bytes with
  | nil => contradiction
  | cons lead rest =>
      have same : lead = code := ((isRead_of_next? read).eq_iff code small).mp rfl
      rw [same, next?_ascii small, Option.some.injEq, Prod.mk.injEq] at read
      exact ⟨rest, same ▸ rfl, read.2.symm⟩

/-- Behind a character fewer bytes are left. -/
theorem length_drop_lt_of_next? {bytes : Bytes} {char : Char} {size : Nat}
    (read : next? bytes = some (char, size)) : (bytes.drop size).length < bytes.length := by
  have positive := size_pos_of_next? read
  cases bytes with
  | nil => contradiction
  | cons lead rest =>
      rw [List.length_drop]
      exact Nat.sub_lt (Nat.succ_pos _) positive

end Utf8

end PageScript
