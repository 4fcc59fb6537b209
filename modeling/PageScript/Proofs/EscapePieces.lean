import PageScript.Literal.Escape
import PageScript.Proofs.Runs

/-!
# The pieces of escaped text

Decoding reads text piece by piece: an escape is a piece, a backslash that opens none is
one with the byte after it, and so is every other byte.  `Escape.pieces` keeps the
pieces apart, with what they stand for.

Text can be cut before a dollar sign without cutting a piece, unless a backslash is left
with nothing to take.  No escape reaches across the cut, because a dollar sign is
neither a digit nor a brace.
-/

namespace PageScript

namespace Bytes

/-- A byte is searched for in the front first. -/
theorem offsetOf?_append (byte : UInt8) (front back : Bytes) :
    offsetOf? [byte] (front ++ back) =
      (offsetOf? [byte] front).or ((offsetOf? [byte] back).map (front.length + ·)) := by
  induction front with
  | nil =>
      cases found : offsetOf? [byte] back <;> simp [offsetOf?, found]
  | cons first front ih =>
      rw [List.cons_append, offsetOf?, offsetOf?, ih]
      simp only [List.isPrefixOf_cons_cons, List.isPrefixOf_nil_left, Bool.and_true]
      split
      · rfl
      · cases offsetOf? [byte] front <;> cases offsetOf? [byte] back <;>
          simp [Nat.add_assoc, Nat.add_comm]

end Bytes

namespace Hex

/-- A byte that is no digit refuses a word. -/
theorem word?_of_mem {digits : Bytes} {byte : UInt8} (member : byte ∈ digits)
    (noDigit : digitValue? byte = none) : word? digits = none := by
  have refused (value : Nat) : wordFrom? value digits = none := by
    induction digits generalizing value with
    | nil => contradiction
    | cons first rest ih =>
        rw [wordFrom?]
        rcases List.mem_cons.mp member with rfl | later
        · rw [noDigit]
        · cases digitValue? first with
          | none => rfl
          | some digit => simp [ih later]
  rw [word?, refused]
  split <;> rfl

/-- Two digits spell a byte, so neither is another byte. -/
theorem byte?_of_mem {digits : Bytes} {byte : UInt8} (member : byte ∈ digits)
    (noDigit : digitValue? byte = none) : byte? digits = none := by
  unfold byte?
  split
  · next high low =>
      simp only [List.mem_cons, List.not_mem_nil, or_false] at member
      rcases member with rfl | rfl
      · simp [noDigit]
      · cases digitValue? high <;> simp [noDigit]
  · rfl

theorem length_of_byte? {digits : Bytes} {byte : UInt8} (spelled : byte? digits = some byte) :
    digits.length = 2 := by
  unfold byte? at spelled
  split at spelled
  · rfl
  · contradiction

end Hex

namespace Escape

/-- A piece of escaped text: how it is written, and the bytes it stands for. -/
structure Piece where
  written : Bytes
  value : Bytes
  deriving DecidableEq

namespace Piece

/-- A piece that stands for itself. -/
def plain (written : Bytes) : Piece where
  written := written
  value := written

end Piece

/-- The pieces that text is decoded by, in order. -/
def pieces : Bytes → List Piece
  | [] => []
  | byte :: rest =>
      if byte = Byte.backslash then
        match escape? rest with
        | some (value, size) => ⟨byte :: rest.take size, value⟩ :: pieces (rest.drop size)
        | none =>
            match rest with
            | [] => [.plain [Byte.backslash]]
            | kept :: after => .plain [Byte.backslash, kept] :: pieces after
      else
        .plain [byte] :: pieces rest
  termination_by bytes => bytes.length
  decreasing_by
    · exact Bytes.length_drop_lt _ _ _
    · exact Nat.lt_succ_of_lt (Nat.lt_succ_self _)
    · exact Nat.lt_succ_self _

@[simp] theorem pieces_nil : pieces [] = [] := by
  rw [pieces.eq_def]

section

variable {byte kept : UInt8} {rest after value : Bytes} {size : Nat}

theorem decode_of_escape (found : escape? rest = some (value, size)) :
    decode (Byte.backslash :: rest) = value ++ decode (rest.drop size) := by
  rw [decode.eq_def]
  simp [found]

theorem decode_of_kept (none : escape? (kept :: after) = none) :
    decode (Byte.backslash :: kept :: after) = [Byte.backslash, kept] ++ decode after := by
  rw [decode.eq_def]
  simp [none]

theorem decode_of_ne (other : byte ≠ Byte.backslash) :
    decode (byte :: rest) = [byte] ++ decode rest := by
  rw [decode.eq_def]
  simp [other]

theorem pieces_of_escape (found : escape? rest = some (value, size)) :
    pieces (Byte.backslash :: rest) =
      ⟨Byte.backslash :: rest.take size, value⟩ :: pieces (rest.drop size) := by
  rw [pieces.eq_def]
  simp [found]

theorem pieces_of_kept (none : escape? (kept :: after) = none) :
    pieces (Byte.backslash :: kept :: after) =
      .plain [Byte.backslash, kept] :: pieces after := by
  rw [pieces.eq_def]
  simp [none]

theorem pieces_of_ne (other : byte ≠ Byte.backslash) :
    pieces (byte :: rest) = .plain [byte] :: pieces rest := by
  rw [pieces.eq_def]
  simp [other]

end

/-- Decoding gives what the pieces stand for. -/
theorem decode_eq_flatMap_pieces (text : Bytes) :
    decode text = (pieces text).flatMap (·.value) := by
  fun_induction pieces text with
  | case1 => simp [decode]
  | case2 rest value size found ih => rw [decode_of_escape found, ih]; rfl
  | case3 none => simp [decode, none, Piece.plain]
  | case4 kept after none ih => rw [decode_of_kept none, ih]; rfl
  | case5 byte rest other ih => rw [decode_of_ne other, ih]; rfl

/-- Text without a backslash stands for itself. -/
theorem decode_of_not_mem {text : Bytes} (plain : Byte.backslash ∉ text) : decode text = text := by
  induction text with
  | nil => simp [decode]
  | cons first text ih =>
      obtain ⟨other, later⟩ := List.ne_and_not_mem_of_not_mem_cons plain
      rw [decode_of_ne other.symm, ih later]
      rfl

/-- The pieces are the text. -/
theorem flatMap_written_pieces (text : Bytes) : (pieces text).flatMap (·.written) = text := by
  fun_induction pieces text with
  | case1 => rfl
  | case2 rest value size found ih => simp [ih]
  | case3 none => rfl
  | case4 kept after none ih => simp [ih, Piece.plain]
  | case5 byte rest other ih => simp [ih, Piece.plain]

/-- What a braced number takes holds no backslash. -/
theorem exists_of_braced? {text : Bytes} {char : Char} {size : Nat}
    (found : braced? text = some (char, size)) :
    ∃ digits rest, text = digits ++ rest ∧ size = digits.length ∧ Byte.backslash ∉ digits := by
  cases text with
  | nil => contradiction
  | cons first rest =>
      simp only [braced?] at found
      split at found
      · next opens =>
          split at found
          · contradiction
          · next length inRest =>
              obtain ⟨front, back, rfl, rfl⟩ := Bytes.exists_split_of_offsetOf? inRest
              rw [List.take_left] at found
              obtain ⟨value, isWord, same⟩ := Option.map_eq_some_iff.mp found
              cases same
              refine ⟨first :: front ++ [Byte.rightBrace], back, by simp, by simp, ?_⟩
              have noDigit : Hex.digitValue? Byte.backslash = none := by decide
              have plain : Byte.backslash ∉ front := by
                intro member
                rw [Hex.word?_of_mem member noDigit] at isWord
                contradiction
              subst opens
              simp only [List.cons_append, List.mem_cons, List.mem_append, plain, false_or]
              decide
      · contradiction

/-- What an escape takes after its first byte holds no backslash. -/
theorem exists_of_escape? {text value : Bytes} {size : Nat}
    (found : escape? text = some (value, size)) :
    ∃ letter digits rest, text = letter :: digits ++ rest ∧ size = digits.length + 1 ∧
      Byte.backslash ∉ digits := by
  cases text with
  | nil => contradiction
  | cons letter rest =>
      have noDigit : Hex.digitValue? Byte.backslash = none := by decide
      simp only [escape?] at found
      split at found
      · cases found
        exact ⟨letter, [], rest, rfl, rfl, List.not_mem_nil⟩
      · split at found
        · obtain ⟨byte, spelled, same⟩ := Option.map_eq_some_iff.mp found
          cases same
          refine ⟨letter, rest.take 2, rest.drop 2, by simp, ?_, ?_⟩
          · rw [Hex.length_of_byte? spelled]
          · intro member
            rw [Hex.byte?_of_mem member noDigit] at spelled
            contradiction
        · split at found
          · obtain ⟨⟨char, count⟩, inBraces, same⟩ := Option.map_eq_some_iff.mp found
            cases same
            obtain ⟨digits, after, rfl, rfl, plain⟩ := exists_of_braced? inBraces
            exact ⟨letter, digits, after, rfl, rfl, plain⟩
          · contradiction

/-- Before a dollar sign braces are found as if nothing followed. -/
theorem braced?_append (text rest : Bytes) :
    braced? (text ++ Byte.dollar :: rest) = braced? text := by
  cases text with
  | nil => rfl
  | cons first text =>
      simp only [List.cons_append, braced?]
      split
      · rw [Bytes.offsetOf?_append]
        cases found : Bytes.offsetOf? [Byte.rightBrace] text with
        | some length =>
            obtain ⟨front, back, rfl, rfl⟩ := Bytes.exists_split_of_offsetOf? found
            simp
        | none =>
            cases beyond : Bytes.offsetOf? [Byte.rightBrace] (Byte.dollar :: rest) with
            | none => rfl
            | some length =>
                -- The digits would run over the dollar sign.
                obtain ⟨front, back, split, rfl⟩ := Bytes.exists_split_of_offsetOf? beyond
                cases front with
                | nil => cases split
                | cons dollar front =>
                    have member : Byte.dollar ∈ (text ++ Byte.dollar :: rest).take
                        (text.length + (dollar :: front).length) := by
                      rw [List.take_length_add_append]
                      simp
                    have noDigit : Hex.digitValue? Byte.dollar = none := by decide
                    simp only [Option.none_or, Option.map_some]
                    rw [Hex.word?_of_mem member noDigit]
                    rfl
      · rfl

/-- Before a dollar sign an escape is found as if nothing followed. -/
theorem escape?_append {text : Bytes} (nonempty : text ≠ []) (rest : Bytes) :
    escape? (text ++ Byte.dollar :: rest) = escape? text := by
  cases text with
  | nil => contradiction
  | cons letter text =>
      have noDigit : Hex.digitValue? Byte.dollar = none := by decide
      have spelled :
          Hex.byte? ((text ++ Byte.dollar :: rest).take 2) = Hex.byte? (text.take 2) := by
        match text with
        | [] => exact Hex.byte?_of_mem (by simp) noDigit
        | [high] => exact Hex.byte?_of_mem (by simp) noDigit
        | high :: low :: text => rfl
      simp only [List.cons_append, escape?, spelled, braced?_append]

/-- Text in which every backslash has a byte to take. -/
inductive IsPaired : Bytes → Prop where
  | nil : IsPaired []
  | byte {byte : UInt8} {rest : Bytes} :
      byte ≠ Byte.backslash → IsPaired rest → IsPaired (byte :: rest)
  | pair {kept : UInt8} {rest : Bytes} :
      IsPaired rest → IsPaired (Byte.backslash :: kept :: rest)

theorem IsPaired.tail {byte : UInt8} {rest : Bytes} (paired : IsPaired (byte :: rest))
    (other : byte ≠ Byte.backslash) : IsPaired rest := by
  cases paired with
  | byte _ later => exact later
  | pair => contradiction

theorem IsPaired.after_kept {kept : UInt8} {rest : Bytes}
    (paired : IsPaired (Byte.backslash :: kept :: rest)) : IsPaired rest := by
  cases paired with
  | byte other => contradiction
  | pair later => exact later

theorem IsPaired.of_append {front rest : Bytes} (plain : Byte.backslash ∉ front)
    (paired : IsPaired (front ++ rest)) : IsPaired rest := by
  induction front with
  | nil => exact paired
  | cons first front ih =>
      obtain ⟨other, later⟩ := List.ne_and_not_mem_of_not_mem_cons plain
      exact ih later (paired.tail other.symm)

/-- The pieces of text before a dollar sign end there. -/
theorem pieces_append {text : Bytes} (paired : IsPaired text) (rest : Bytes) :
    pieces (text ++ Byte.dollar :: rest) = pieces text ++ pieces (Byte.dollar :: rest) := by
  fun_induction pieces text with
  | case1 => rfl
  | case2 text value size found ih =>
      obtain ⟨letter, digits, after, rfl, rfl, plain⟩ := exists_of_escape? found
      have same : escape? (letter :: digits ++ after ++ Byte.dollar :: rest) =
          some (value, digits.length + 1) :=
        (escape?_append (by simp) rest).trans found
      have dropped (more : Bytes) :
          (letter :: digits ++ more).drop (digits.length + 1) = more := by simp
      have taken (more : Bytes) :
          (letter :: digits ++ more).take (digits.length + 1) = letter :: digits := by simp
      have later : IsPaired after := paired.after_kept.of_append plain
      rw [dropped] at ih
      rw [List.cons_append, pieces_of_escape same, List.append_assoc, dropped, taken, dropped,
        taken, ih later, List.cons_append]
  | case3 none =>
      cases paired
      contradiction
  | case4 kept after none ih =>
      have same : escape? (kept :: (after ++ Byte.dollar :: rest)) = Option.none :=
        (escape?_append (List.cons_ne_nil kept after) rest).trans none
      rw [List.cons_append, List.cons_append, pieces_of_kept same, ih paired.after_kept,
        List.cons_append]
  | case5 byte text other ih =>
      rw [List.cons_append, pieces_of_ne other, ih (paired.tail other), List.cons_append]

/-- Without a backslash every byte is a piece. -/
theorem pieces_append_of_not_mem {text : Bytes} (plain : Byte.backslash ∉ text) (rest : Bytes) :
    pieces (text ++ rest) = pieces text ++ pieces rest := by
  induction text with
  | nil => simp
  | cons first text ih =>
      obtain ⟨other, later⟩ := List.ne_and_not_mem_of_not_mem_cons plain
      rw [List.cons_append, pieces_of_ne other.symm, pieces_of_ne other.symm, ih later,
        List.cons_append]

end Escape

end PageScript
