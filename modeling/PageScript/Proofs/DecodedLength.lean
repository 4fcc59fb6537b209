import PageScript.Proofs.CodePoints

/-!
# The length of decoded text

Decoding changes text only by making it shorter.  An escape takes more bytes than it stands
for, even where its number stands for the replacement character, and what opens no escape
stands for itself.  So a buffer as long as the text has room for what is decoded.

`Escape.Bounded` is the decoder that takes nothing for granted: it is refused every range
that does not lie inside its text, and every write that its buffer has no room for.
-/

namespace PageScript

namespace Bytes

variable {bytes part : Bytes} {start stop : Nat}

/-- The bytes of a range, which is refused unless it lies inside. -/
def slice? (bytes : Bytes) (start stop : Nat) : Option Bytes :=
  if start ≤ stop ∧ stop ≤ bytes.length then some ((bytes.take stop).drop start) else none

theorem slice?_of_le (ordered : start ≤ stop) (inside : stop ≤ bytes.length) :
    bytes.slice? start stop = some ((bytes.take stop).drop start) :=
  if_pos ⟨ordered, inside⟩

/-- The rest of the bytes is a range. -/
theorem slice?_length (inside : start ≤ bytes.length) :
    bytes.slice? start bytes.length = some (bytes.drop start) := by
  rw [slice?_of_le inside (Nat.le_refl _), List.take_length]

theorem length_le_of_slice? (taken : bytes.slice? start stop = some part) :
    part.length ≤ bytes.length := by
  obtain ⟨-, same⟩ := Option.ite_none_right_eq_some.mp taken
  cases same
  rw [List.length_drop, List.length_take]
  omega

end Bytes

namespace Escape

/-- Written bytes stand for themselves, or for fewer bytes. -/
def Shortens (written value : Bytes) : Prop :=
  value = written ∨ value.length < written.length

namespace Shortens

variable {written value more moreValue : Bytes}

theorem refl (written : Bytes) : Shortens written written := .inl rfl

theorem length_le (shortens : Shortens written value) : value.length ≤ written.length := by
  rcases shortens with rfl | shorter
  · exact Nat.le_refl _
  · exact Nat.le_of_lt shorter

/-- Only what stands for itself keeps its length. -/
theorem length_eq_iff (shortens : Shortens written value) :
    value.length = written.length ↔ value = written := by
  rcases shortens with rfl | shorter
  · simp
  · exact ⟨fun same => absurd same (Nat.ne_of_lt shorter), congrArg List.length⟩

theorem append (first : Shortens written value) (later : Shortens more moreValue) :
    Shortens (written ++ more) (value ++ moreValue) := by
  have le := later.length_le
  rcases first with rfl | shorter
  · rcases later with rfl | shorter
    · exact refl _
    · exact .inr (by simpa using shorter)
  · exact .inr (by simpa using Nat.add_lt_add_of_lt_of_le shorter le)

end Shortens

/-- Braces take at least one digit. -/
theorem three_le_of_braced? {text : Bytes} {char : Char} {size : Nat}
    (found : braced? text = some (char, size)) : 3 ≤ size := by
  obtain ⟨digits, rest, numeral, rfl⟩ := beginsBraced_of_braced? found
  have positive := List.length_pos_iff.mpr numeral.nonempty
  rw [braced?_inBraces numeral] at found
  obtain ⟨value, -, same⟩ := Option.map_eq_some_iff.mp found
  cases same
  omega

section

variable {text value : Bytes} {size : Nat}

/-- An escape ends inside the text. -/
theorem le_length_of_escape? (found : escape? text = some (value, size)) :
    size ≤ text.length := by
  obtain ⟨letter, digits, rest, rfl, rfl, -⟩ := exists_of_escape? found
  simp

/-- An escape stands for no more bytes than follow its backslash in it. -/
theorem length_le_of_escape? (found : escape? text = some (value, size)) :
    value.length ≤ size := by
  cases text with
  | nil => contradiction
  | cons letter rest =>
      simp only [escape?] at found
      split at found
      · cases found
        exact Nat.le_refl 1
      · split at found
        · obtain ⟨byte, -, same⟩ := Option.map_eq_some_iff.mp found
          cases same
          exact Nat.le_of_ble_eq_true rfl
        · split at found
          · obtain ⟨⟨char, count⟩, inBraces, same⟩ := Option.map_eq_some_iff.mp found
            cases same
            have digits := three_le_of_braced? inBraces
            have atMostFour : (Utf8.encode char).length ≤ 4 := by
              rw [String.length_utf8EncodeChar]
              exact char.utf8Size_le_four
            exact atMostFour.trans (Nat.succ_le_succ digits)
          · contradiction

end

/-- Every piece stands for itself or for fewer bytes. -/
theorem shortens_of_mem_pieces (text : Bytes) :
    ∀ piece ∈ pieces text, Shortens piece.written piece.value := by
  fun_induction pieces text with
  | case1 => simp
  | case2 rest value size found ih =>
      refine List.forall_mem_cons.mpr ⟨.inr ?_, ih⟩
      have short := length_le_of_escape? found
      rw [List.length_cons, List.length_take_of_le (le_length_of_escape? found)]
      exact Nat.lt_succ_of_le short
  | case3 none => simpa [Piece.plain] using Shortens.refl _
  | case4 kept after none ih => exact List.forall_mem_cons.mpr ⟨.refl _, ih⟩
  | case5 byte rest other ih => exact List.forall_mem_cons.mpr ⟨.refl _, ih⟩

theorem shortens_decode (text : Bytes) : Shortens text (decode text) := by
  have each := shortens_of_mem_pieces text
  have written := flatMap_written_pieces text
  rw [decode_eq_flatMap_pieces]
  generalize pieces text = all at each written
  subst written
  induction all with
  | nil => exact .refl []
  | cons piece all ih =>
      obtain ⟨first, later⟩ := List.forall_mem_cons.mp each
      exact first.append (ih later)

theorem shortens_decodeSingle (text : Bytes) : Shortens text (decodeSingle text) := by
  fun_induction decodeSingle text with
  | case1 => exact .refl []
  | case2 => exact .refl _
  | case3 following after escaped ih =>
      have first : Shortens [Byte.backslash, following] [following] := .inr Nat.one_lt_two
      exact first.append ih
  | case4 following after other ih => exact (Shortens.refl [_, _]).append ih
  | case5 byte rest other ih => exact (Shortens.refl [_]).append ih

namespace Bounded

/-- Write behind what was written, if there is room. -/
def write? (room : Nat) (written more : Bytes) : Option Bytes :=
  if (written ++ more).length ≤ room then some (written ++ more) else none

/-- A letter that opens no escape, kept with its backslash. -/
def kept (letter : UInt8) : Bytes × Nat :=
  ([Byte.backslash, letter], 1)

/-- The value of text that begins with `x` behind a backslash, and the bytes it takes. -/
def hexByte (text : Bytes) : Bytes × Nat :=
  match (text.slice? 1 3).bind Hex.byte? with
  | some byte => ([byte], 3)
  | none => kept (Byte.ofChar 'x')

/-- The value of text that begins with `u` behind a backslash, and the bytes it takes. -/
def codePoint? (text : Bytes) : Option (Bytes × Nat) :=
  if text.length < 3 then
    some (kept (Byte.ofChar 'u'))
  else
    (text.slice? 1 2).bind fun second =>
      if second = [Byte.leftBrace] then
        match Bytes.offsetOf? [Byte.rightBrace] text with
        | none => some (kept (Byte.ofChar 'u'))
        | some close =>
            (text.slice? 2 close).map fun digits =>
              match Hex.word? digits with
              | none => kept (Byte.ofChar 'u')
              | some value => (Utf8.encode (scalar value), close + 1)
      else
        some (kept (Byte.ofChar 'u'))

/-- The value of text behind a backslash, and the bytes it takes. -/
def escape? (letter : UInt8) (text : Bytes) : Option (Bytes × Nat) :=
  match letter? letter with
  | some byte => some ([byte], 1)
  | none =>
      if letter = Byte.ofChar 'x' then some (hexByte text)
      else if letter = Byte.ofChar 'u' then codePoint? text
      else some (kept letter)

/-- Decode text behind what was written, in a buffer of `room` bytes. -/
def decode? (room : Nat) (written : Bytes) : Bytes → Option Bytes
  | [] => some written
  | byte :: rest =>
      if byte = Byte.backslash then
        match rest with
        | [] => write? room written [Byte.backslash]
        | letter :: after =>
            match escape? letter (letter :: after) with
            | none => none
            | some (value, size) =>
                match write? room written value,
                    _left : Bytes.slice? (letter :: after) size (letter :: after).length with
                | some written, some left => decode? room written left
                | _, _ => none
      else
        match write? room written [byte] with
        | some written => decode? room written rest
        | none => none
  termination_by text => text.length
  decreasing_by
    · exact Nat.lt_succ_of_le (Bytes.length_le_of_slice? _left)
    · exact Nat.lt_succ_self _

variable {room size : Nat} {written more text : Bytes}

theorem write?_of_le (fits : written.length + more.length ≤ room) :
    write? room written more = some (written ++ more) :=
  if_pos (List.length_append ▸ fits)

/-- Two digits are looked for only where two bytes are left. -/
theorem hexByte_eq (rest : Bytes) :
    hexByte (Byte.ofChar 'x' :: rest) =
      (((Hex.byte? (rest.take 2)).map fun byte => ([byte], 3)).getD
        (kept (Byte.ofChar 'x'))) := by
  match rest with
  | [] => rfl
  | [_] => rfl
  | high :: low :: more =>
      rw [hexByte, Bytes.slice?_of_le (by simp) (by simp)]
      cases spelled : Hex.byte? [high, low] <;> simp [spelled]

/-- No range of a number in braces lies outside. -/
theorem codePoint?_eq (rest : Bytes) :
    codePoint? (Byte.ofChar 'u' :: rest) =
      some (((braced? rest).map fun (char, size) => (Utf8.encode char, size + 1)).getD
        (kept (Byte.ofChar 'u'))) := by
  match rest with
  | [] => rfl
  | [first] =>
      have none : braced? [first] = none := by
        simp [braced?, Bytes.offsetOf?]
      rw [none]
      rfl
  | first :: next :: more =>
      have long : ¬ (Byte.ofChar 'u' :: first :: next :: more).length < 3 := by simp
      rw [codePoint?, if_neg long, Bytes.slice?_of_le (by simp) (by simp)]
      simp only [List.take_succ_cons, List.take_zero, List.drop_succ_cons, List.drop_zero,
        Option.bind_some, List.cons.injEq, and_true, braced?]
      split
      · next opens =>
          have before : Bytes.offsetOf? [Byte.rightBrace] [Byte.ofChar 'u', first] = none := by
            rw [opens]
            decide
          have shifted := Bytes.offsetOf?_append Byte.rightBrace [Byte.ofChar 'u', first]
            (next :: more)
          rw [before, Option.none_or] at shifted
          simp only [List.cons_append, List.nil_append] at shifted
          rw [shifted]
          cases closes : Bytes.offsetOf? [Byte.rightBrace] (next :: more) with
          | none => rfl
          | some length =>
              have inside : length + 1 ≤ (next :: more).length :=
                Bytes.offsetOf?_add_length_le closes
              have digits : Bytes.slice? (Byte.ofChar 'u' :: first :: next :: more) 2
                  (2 + length) = some ((next :: more).take length) := by
                rw [Bytes.slice?_of_le (Nat.le_add_right _ _)]
                · rw [Nat.add_comm]
                  rfl
                · simp only [List.length_cons] at inside ⊢
                  omega
              simp only [Option.map_some, List.length_cons, List.length_nil, digits]
              cases Hex.word? ((next :: more).take length) with
              | none => rfl
              | some value =>
                  simp [Nat.add_comm]
      · rfl

/-- Behind a backslash stands an escape, or the letter is kept. -/
theorem escape?_eq (letter : UInt8) (rest : Bytes) :
    escape? letter (letter :: rest) =
      some ((Escape.escape? (letter :: rest)).getD (kept letter)) := by
  cases known : letter? letter with
  | some byte => simp [escape?, Escape.escape?, known]
  | none =>
      simp only [escape?, Escape.escape?, known]
      split
      · next isX => rw [isX, hexByte_eq]
      · split
        · next isU => rw [isU, codePoint?_eq]
        · rfl

/-- One step behind a backslash, if it stays inside the text and there is room. -/
theorem decode?_backslash {letter : UInt8} {after value : Bytes}
    (step : (Escape.escape? (letter :: after)).getD (kept letter) = (value, size))
    (inside : size ≤ (letter :: after).length) (fits : written.length + value.length ≤ room) :
    decode? room written (Byte.backslash :: letter :: after) =
      decode? room (written ++ value) ((letter :: after).drop size) := by
  rw [decode?]
  simp only [if_true, escape?_eq, step, write?_of_le fits]
  have there := Bytes.slice?_length inside
  split
  · next enough left same taken =>
      cases same
      cases there.symm.trans taken
      rfl
  · next refused =>
      exact absurd there (refused _ _ rfl)

/-- No range lies outside, and the room that the text itself needs is enough. -/
theorem decode?_eq (fits : written.length + text.length ≤ room) :
    decode? room written text = some (written ++ decode text) := by
  fun_induction decode text generalizing written with
  | case1 => simp [decode?]
  | case2 rest value size found ih =>
      cases rest with
      | nil => contradiction
      | cons letter after =>
          have short := length_le_of_escape? found
          have inside := le_length_of_escape? found
          rw [List.length_cons] at fits
          rw [decode?_backslash (by rw [found]; rfl) inside (by omega), ih, List.append_assoc]
          rw [List.length_append, List.length_drop]
          omega
  | case3 none =>
      rw [decode?]
      exact write?_of_le fits
  | case4 kept after none ih =>
      have two : [Byte.backslash, kept].length = 2 := rfl
      rw [List.length_cons, List.length_cons] at fits
      rw [decode?_backslash (by rw [none]; rfl) (Nat.succ_pos _) (by omega),
        List.drop_succ_cons, List.drop_zero, ih, List.append_assoc]
      · rfl
      · rw [List.length_append]
        omega
  | case5 byte rest other ih =>
      have one : [byte].length = 1 := rfl
      rw [List.length_cons] at fits
      have enough : written.length + [byte].length ≤ room := by omega
      rw [decode?.eq_def]
      simp only [if_neg other, write?_of_le enough]
      rw [ih, List.append_assoc]
      · rfl
      · rw [List.length_append]
        omega

end Bounded

/-- Decoding takes no range outside of its text and needs no more room than that.  It never
makes text longer, and leaves the length as it is only where it changes nothing; and so does
decoding between single quotes. -/
theorem decode_shortens (text : Bytes) :
    Bounded.decode? text.length [] text = some (decode text) ∧
      ((decode text).length ≤ text.length ∧
        ((decode text).length = text.length ↔ decode text = text)) ∧
      (decodeSingle text).length ≤ text.length ∧
        ((decodeSingle text).length = text.length ↔ decodeSingle text = text) := by
  have double := shortens_decode text
  have single := shortens_decodeSingle text
  refine ⟨?_, ⟨double.length_le, double.length_eq_iff⟩, single.length_le, single.length_eq_iff⟩
  exact Bounded.decode?_eq (by simp)

/-- The replacement character takes three bytes, one more than there is room for. -/
example : Bounded.decode? 11 [] (Bytes.ascii "\\u\x7b110000\x7d!") =
      some (Utf8.encode Utf8.replacement ++ Bytes.ascii "!") ∧
    Bounded.decode? 2 [] (Bytes.ascii "\\u\x7b110000\x7d!") = none := by decide +kernel

end Escape

end PageScript
