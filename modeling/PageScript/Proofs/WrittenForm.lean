import Mathlib.Data.List.Chain
import PageScript.Proofs.EscapePieces
import PageScript.Proofs.Stream
import PageScript.Proofs.Utf8Text

/-!
# Reading back the written form of bytes

The written form of a byte string is ASCII between double quotes, and it is also a
double-quoted string of a page.  Each byte is written on its own: with the letter of an
escape, as itself, or by its number.  Decoding reads each of these ways back whatever
follows, and a body of text goes on through it: no backslash is left to take a quote of
the form with it, and nothing in the form ends the body early.

Only a dollar sign could do that, as a variable.  The form keeps the byte after it, unless
that byte is written with a backslash, so a variable begins in the form where an ASCII
letter or an underscore follows a dollar sign in the bytes.
-/

namespace PageScript

namespace Hex

theorem digitValue?_digitChar {value : Nat} (small : value < 16) :
    digitValue? (Byte.ofChar (digitChar value)) = some value := by
  have all : ∀ value < 16, digitValue? (Byte.ofChar (digitChar value)) = some value := by
    decide
  exact all value small

theorem byte?_of_digits {high low : UInt8} {upper lower : Nat}
    (readHigh : digitValue? high = some upper) (readLow : digitValue? low = some lower) :
    byte? [high, low] = some (UInt8.ofNat (upper * 16 + lower)) := by
  simp [byte?, readHigh, readLow]

theorem lt_of_digitValue? {digit : UInt8} {value : Nat}
    (read : digitValue? digit = some value) : digit < 0x80 := by
  have below {first last : UInt8} (inside : (first ≤ digit && digit ≤ last) = true)
      (small : last < 0x80) : digit < 0x80 :=
    UInt8.lt_of_le_of_lt (of_decide_eq_true (Bool.and_eq_true_iff.mp inside).2) small
  unfold digitValue? at read
  split at read
  · next decimal => exact below decimal (by decide)
  split at read
  · next lower => exact below lower (by decide)
  split at read
  · next upper => exact below upper (by decide)
  · contradiction

theorem ne_of_digitValue? {digit other : UInt8} {value : Nat}
    (read : digitValue? digit = some value) (noDigit : digitValue? other = none) :
    digit ≠ other := by
  rintro rfl
  simp [read] at noDigit

end Hex

namespace Lexeme

/-- Between double quotes a backslash takes any byte with it. -/
theorem textLength_of_pair (kept : UInt8) (rest : Bytes) :
    textLength .doubleQuote (Byte.backslash :: kept :: rest) =
      textLength .doubleQuote rest + 2 := by
  rw [textLength_backslash_cons, if_neg (by simp [keepsLineBreak])]

/-- Between double quotes only a quote is a terminator. -/
theorem not_terminator? {byte : UInt8} (notQuote : byte ≠ Byte.doubleQuote) (rest : Bytes) :
    ¬ (terminator? .doubleQuote (byte :: rest)).isSome := by
  simp [terminator?, notQuote]

theorem not_startsVariable {byte : UInt8} (notDollar : byte ≠ Byte.dollar) (rest : Bytes) :
    ¬ startsVariable (byte :: rest) := by
  simp [startsVariable, notDollar]

end Lexeme

namespace Bytes

/-- How a byte is written: with the letter of an escape, as itself, or by its number. -/
inductive IsWritten (byte : UInt8) : Bytes → Prop where
  | letter {letter : UInt8} :
      letter < 0x80 → Escape.letter? letter = some byte → IsWritten byte [Byte.backslash, letter]
  | visible :
      0x20 ≤ byte → byte ≤ 0x7E → byte ≠ Byte.doubleQuote → byte ≠ Byte.backslash →
      IsWritten byte [byte]
  | number {high low : UInt8} {upper lower : Nat} :
      Hex.digitValue? high = some upper → Hex.digitValue? low = some lower →
      UInt8.ofNat (upper * 16 + lower) = byte →
      IsWritten byte [Byte.backslash, Byte.ofChar 'x', high, low]

theorem writeByte_isWritten (byte : UInt8) : IsWritten byte (writeByte byte) := by
  unfold writeByte
  split
  · next same =>
      subst same
      exact .letter (by decide) rfl
  split
  · next same =>
      subst same
      exact .letter (by decide) rfl
  split
  · next same =>
      subst same
      exact .letter (by decide) rfl
  split
  · next same =>
      subst same
      exact .letter (by decide) rfl
  split
  · next same =>
      subst same
      exact .letter (by decide) rfl
  split
  · next notQuote notBackslash _ _ _ visible =>
      obtain ⟨low, high⟩ := Bool.and_eq_true_iff.mp visible
      exact .visible (of_decide_eq_true low) (of_decide_eq_true high) notQuote notBackslash
  · have size := byte.toNat_lt
    exact .number (Hex.digitValue?_digitChar (show byte.toNat / 16 < 16 by omega))
      (Hex.digitValue?_digitChar (show byte.toNat % 16 < 16 by omega))
      (by rw [Nat.div_add_mod', UInt8.ofNat_toNat])

namespace IsWritten

variable {byte : UInt8} {text : Bytes}

theorem ascii (written : IsWritten byte text) : ∀ part ∈ text, part < 0x80 := by
  have backslash : Byte.backslash < 0x80 := by decide
  have marker : Byte.ofChar 'x' < 0x80 := by decide
  cases written with
  | letter small => simp [backslash, small]
  | visible _ high => simpa using UInt8.lt_of_le_of_lt high (by decide)
  | number high low =>
      simp [backslash, marker, Hex.lt_of_digitValue? high, Hex.lt_of_digitValue? low]

/-- A written byte is read back, whatever follows. -/
theorem decode_append (written : IsWritten byte text) (rest : Bytes) :
    Escape.decode (text ++ rest) = byte :: Escape.decode rest := by
  cases written with
  | @letter letter _ read =>
      have found : Escape.escape? (letter :: rest) = some ([byte], 1) := by
        simp [Escape.escape?, read]
      exact Escape.decode_of_escape found
  | visible _ _ _ notBackslash => exact Escape.decode_of_ne notBackslash
  | @number high low upper lower readHigh readLow same =>
      have found : Escape.escape? (Byte.ofChar 'x' :: high :: low :: rest) = some ([byte], 3) := by
        have noLetter : Escape.letter? (Byte.ofChar 'x') = none := by decide
        have spelled := Hex.byte?_of_digits readHigh readLow
        simp [Escape.escape?, noLetter, spelled, same]
      exact Escape.decode_of_escape found

/-- A run of text goes on behind a written byte, if the byte does not begin a variable. -/
theorem textLength_append (written : IsWritten byte text) {rest : Bytes}
    (notVariable : ¬ Lexeme.startsVariable (byte :: rest)) :
    Lexeme.textLength .doubleQuote (text ++ rest) =
      Lexeme.textLength .doubleQuote rest + text.length := by
  cases written with
  | letter => exact Lexeme.textLength_of_pair _ rest
  | visible _ _ notQuote notBackslash =>
      exact Lexeme.textLength_of_ne notBackslash notVariable (Lexeme.not_terminator? notQuote rest)
  | @number high low upper lower readHigh readLow =>
      have digit {digit : UInt8} {value : Nat} (read : Hex.digitValue? digit = some value)
          (rest : Bytes) : Lexeme.textLength .doubleQuote (digit :: rest) =
            Lexeme.textLength .doubleQuote rest + 1 :=
        Lexeme.textLength_of_ne (Hex.ne_of_digitValue? read (by decide))
          (Lexeme.not_startsVariable (Hex.ne_of_digitValue? read (by decide)) rest)
          (Lexeme.not_terminator? (Hex.ne_of_digitValue? read (by decide)) rest)
      calc Lexeme.textLength .doubleQuote ([Byte.backslash, Byte.ofChar 'x', high, low] ++ rest)
        _ = Lexeme.textLength .doubleQuote (high :: low :: rest) + 2 :=
            Lexeme.textLength_of_pair _ _
        _ = Lexeme.textLength .doubleQuote rest + 1 + 1 + 2 := by
            rw [digit readHigh, digit readLow]

/-- A name begins in a written byte only if it begins in the byte. -/
theorem isNameStart_of_startsWhere (written : IsWritten byte text) {rest : Bytes}
    (starts : startsWhere Byte.isNameStart (text ++ rest)) :
    Byte.isUpper byte || Byte.isLower byte || byte == Byte.underscore := by
  cases written with
  | letter => contradiction
  | visible _ high =>
      have small : ¬ 0x80 ≤ byte := UInt8.not_le.mpr (UInt8.lt_of_le_of_lt high (by decide))
      simpa [startsWhere, Byte.isNameStart, small] using starts
  | number => contradiction

end IsWritten

theorem writeBody_cons (byte : UInt8) (bytes : Bytes) :
    writeBody (byte :: bytes) = writeByte byte ++ writeBody bytes := rfl

/-- The written form is ASCII, so its text has the same bytes. -/
theorem ofString_quoted (bytes : Bytes) : Utf8.ofString bytes.quoted = bytes.written := by
  refine (Utf8.isText_of_ascii ?_).ofString_lossy
  have body : ∀ part ∈ writeBody bytes, part < 0x80 := by
    intro part member
    obtain ⟨byte, -, inText⟩ := List.mem_flatMap.mp member
    exact (writeByte_isWritten byte).ascii part inText
  intro part member
  simp only [written, List.cons_append, List.mem_cons, List.mem_append, List.not_mem_nil,
    or_false] at member
  rcases member with rfl | inBody | rfl
  · decide
  · exact body part inBody
  · decide

/-- Decoding undoes writing. -/
theorem decode_writeBody (bytes : Bytes) : Escape.decode (writeBody bytes) = bytes := by
  induction bytes with
  | nil => simp [writeBody, Escape.decode]
  | cons byte bytes ih =>
      rw [writeBody_cons, (writeByte_isWritten byte).decode_append, ih]

/-- No dollar sign has an ASCII letter or an underscore right behind it. -/
def NamesNothing (bytes : Bytes) : Prop :=
  bytes.IsChain fun sigil following => sigil = Byte.dollar →
    ¬ (Byte.isUpper following || Byte.isLower following || following == Byte.underscore)

instance (bytes : Bytes) : Decidable bytes.NamesNothing :=
  inferInstanceAs (Decidable (List.IsChain _ bytes))

/-- No variable begins in the written form of such bytes. -/
theorem NamesNothing.not_startsVariable {byte : UInt8} {bytes : Bytes}
    (nothing : NamesNothing (byte :: bytes)) (rest : Bytes) :
    ¬ Lexeme.startsVariable (byte :: (writeBody bytes ++ Byte.doubleQuote :: rest)) := by
  intro starts
  simp only [Lexeme.startsVariable, Bool.and_eq_true, beq_iff_eq] at starts
  obtain ⟨rfl, named⟩ := starts
  cases bytes with
  | nil => contradiction
  | cons following bytes =>
      rw [writeBody_cons, List.append_assoc] at named
      have letter := (writeByte_isWritten following).isNameStart_of_startsWhere named
      exact (List.isChain_cons_cons.mp nothing).1 rfl letter

/-- A written body is one run of text up to the closing quote. -/
theorem textLength_writeBody {bytes : Bytes} (nothing : NamesNothing bytes) (rest : Bytes) :
    Lexeme.textLength .doubleQuote (writeBody bytes ++ Byte.doubleQuote :: rest) =
      (writeBody bytes).length := by
  induction bytes with
  | nil => exact Lexeme.textLength_eq_zero (by decide) (.inr rfl)
  | cons byte bytes ih =>
      rw [writeBody_cons, List.append_assoc,
        (writeByte_isWritten byte).textLength_append (nothing.not_startsVariable rest),
        ih (List.IsChain.tail nothing), List.length_append, Nat.add_comm]

end Bytes

/-- A body of text only, with its terminator. -/
theorem Lexeme.body_of_textLength {enclosure : Enclosure} {text after : Bytes} {byte : UInt8}
    {closer : Lexeme} (length : textLength enclosure (text ++ byte :: after) = text.length)
    (found : terminator? enclosure (byte :: after) = some closer) :
    body enclosure (text ++ byte :: after) = (bodyText text.length ++ [closer], true) := by
  have left : (text ++ byte :: after).drop (textLength enclosure (text ++ byte :: after)) =
      byte :: after := by
    rw [length, List.drop_left]
  rw [body_of_closed left found, length]

namespace Mode

theorem cutScript_doubleQuote (rest : Bytes) :
    cutScript (Byte.doubleQuote :: rest) =
      { lexemes := [⟨.char, 1⟩], next := some (.body .doubleQuote) } := rfl

/-- A string of text only takes its text and the quote behind it. -/
theorem cutBody_text {text rest : Bytes}
    (length : Lexeme.textLength .doubleQuote (text ++ Byte.doubleQuote :: rest) = text.length) :
    cutBody .doubleQuote (text ++ Byte.doubleQuote :: rest) =
      { lexemes := Lexeme.bodyText text.length ++ [⟨.char, 1⟩], next := some .script } := by
  rw [cutBody, Lexeme.body_of_textLength length rfl]

end Mode

namespace Literal

/-- A page whose script begins with a double-quoted string of text only: what the tokens of
the string are. -/
theorem scan_tokens_text {text rest : Bytes}
    (length : Lexeme.textLength .doubleQuote (text ++ Byte.doubleQuote :: rest) = text.length)
    (file : FileId) :
    let string := Byte.doubleQuote :: (text ++ Byte.doubleQuote :: rest)
    ∃ tag behind terminator later,
      (scan .text (Bytes.ascii "<?php " ++ string) file).tokens =
        tag :: ⟨.char, ⟨6, 7, 1, 7, file⟩, [Byte.doubleQuote]⟩ ::
          (Lexeme.place file behind text (Lexeme.bodyText text.length) ++ terminator :: later) ∧
      opening? tag = none ∧ Enclosure.doubleQuote.Closes terminator ∧
      terminator.span.stop = text.length + 8 := by
  intro string
  let tag := Bytes.ascii "<?php "
  let opened := Byte.doubleQuote :: tag.reverse
  let atQuote : Call := ⟨.script, tag.reverse, string⟩
  let inBody : Call := ⟨.body .doubleQuote, opened, text ++ Byte.doubleQuote :: rest⟩
  have cut : inBody.cut =
      { lexemes := Lexeme.bodyText text.length ++ [⟨.char, 1⟩], next := some .script } :=
    Mode.cutBody_text length
  have quoted : atQuote.cut.next = some (.body .doubleQuote) :=
    congrArg Cut.next (Mode.cutScript_doubleQuote (text ++ Byte.doubleQuote :: rest))
  have closed : inBody.cut.next = some .script := congrArg Cut.next cut
  have published : inBody.tokens file =
      Lexeme.place file opened text (Lexeme.bodyText text.length) ++
        [.after file (text.reverse ++ opened) .char [Byte.doubleQuote]] := by
    have shape : Lexeme.IsParts .doubleQuote text _ ([Byte.doubleQuote] ++ rest) := .text length
    rw [Call.tokens, cut]
    exact shape.place_closing file opened .char
  refine ⟨.after file [] .openTag tag, opened,
    .after file (text.reverse ++ opened) .char [Byte.doubleQuote],
    (inBody.onward .script).tokensOnward file, ?_, rfl, ⟨rfl, rfl⟩, ?_⟩
  · calc (scan .text (tag ++ string) file).tokens
      _ = .after file [] .openTag tag :: atQuote.tokensOnward file :=
          scan_openTag string file
      _ = .after file [] .openTag tag :: ⟨.char, ⟨6, 7, 1, 7, file⟩, [Byte.doubleQuote]⟩ ::
            inBody.tokensOnward file := by
          rw [Call.tokensOnward_of_next file quoted]
          rfl
      _ = _ := by
          rw [Call.tokensOnward_of_next file closed, published, List.append_assoc,
            List.singleton_append]
  · have width : opened.length = 7 := rfl
    change (text.reverse ++ opened).length + 1 = text.length + 8
    rw [List.length_append, List.length_reverse, width]

/-- A body of text only has a value. -/
theorem constantAll?_text (file : FileId) (behind text : Bytes) :
    Expr.constantAll?
        ((Lexeme.place file behind text (Lexeme.bodyText text.length)).map Token.part) =
      some (Escape.decode text) := by
  rw [Lexeme.place_text]
  split
  · next none => simp [none, Expr.constantAll?, Escape.decode]
  · simp [Token.part, Token.after, Expr.constantAll?, Expr.constant?]

/-- The first item of such a page is the string, with the text decoded as its value. -/
theorem items_text {text rest : Bytes}
    (length : Lexeme.textLength .doubleQuote (text ++ Byte.doubleQuote :: rest) = text.length)
    (file : FileId) :
    let string := Byte.doubleQuote :: (text ++ Byte.doubleQuote :: rest)
    let tokens := (scan .text (Bytes.ascii "<?php " ++ string) file).tokens
    tokens[1]? = some ⟨.char, ⟨6, 7, 1, 7, file⟩, [Byte.doubleQuote]⟩ ∧
      ∃ parts, (items tokens).head? =
          some (.ok (.concat parts ⟨6, text.length + 8, 1, 7, file⟩)) ∧
        Expr.constantAll? parts = some (Escape.decode text) := by
  intro string tokens
  obtain ⟨tag, behind, terminator, later, scanned, opensNothing, closes, stop⟩ :=
    scan_tokens_text length file
  change tokens = _ at scanned
  have opens : Enclosure.doubleQuote.Opens
      ⟨.char, ⟨6, 7, 1, 7, file⟩, [Byte.doubleQuote]⟩ := ⟨rfl, rfl⟩
  have isPart := Lexeme.place_isPart file behind text
    fun lexeme (member : lexeme ∈ Lexeme.bodyText text.length) =>
      .inl (Lexeme.bodyText_kind lexeme member)
  refine ⟨by rw [scanned]; rfl, _, ?_, constantAll?_text file behind text⟩
  rw [scanned, items_cons_of_none opensNothing, items_cons_of_closes opens isPart closes later,
    cover, stop]
  rfl

/-- The written form of bytes, without its quotes, decodes to them.  Behind an open tag
it is one string with the bytes as its value, whatever follows it, unless the bytes
name a variable. -/
theorem quoted_readBack (value : Bytes) :
    let form := Utf8.ofString value.quoted
    (∃ body, form = Byte.doubleQuote :: body ++ [Byte.doubleQuote] ∧
        Escape.decode body = value) ∧
      (value.NamesNothing → ∀ rest file,
        let tokens := (scan .text (Bytes.ascii "<?php " ++ (form ++ rest)) file).tokens
        let span : Span := ⟨6, 6 + form.length, 1, 7, file⟩
        tokens[1]? = some ⟨.char, ⟨6, 7, 1, 7, file⟩, [Byte.doubleQuote]⟩ ∧
          ∃ parts, (items tokens).head? = some (.ok (.concat parts span)) ∧
            (Expr.concat parts span).constant? = some value) := by
  intro form
  have written : form = Byte.doubleQuote :: value.writeBody ++ [Byte.doubleQuote] :=
    value.ofString_quoted
  have decoded := value.decode_writeBody
  refine ⟨⟨value.writeBody, written, decoded⟩, ?_⟩
  intro nothing rest file tokens span
  have string : form ++ rest =
      Byte.doubleQuote :: (value.writeBody ++ Byte.doubleQuote :: rest) := by
    simp [written]
  have stop : 6 + form.length = value.writeBody.length + 8 := by
    rw [written]
    simp only [List.length_append, List.length_cons, List.length_nil]
    omega
  obtain ⟨opener, parts, first, constant⟩ :=
    items_text (Bytes.textLength_writeBody nothing rest) file
  rw [← string] at opener first
  rw [← stop] at first
  rw [decoded] at constant
  exact ⟨opener, parts, first, constant⟩

/-- A quote behind a backslash, a dollar sign before a byte outside of ASCII, and a letter
right behind the form. -/
theorem quoted_readBack_escaped :
    let value : Bytes := [Byte.backslash, Byte.doubleQuote, Byte.dollar, 0xE9, Byte.lineFeed]
    let form := Utf8.ofString value.quoted
    value.NamesNothing ∧
      let tokens := (scan .text (Bytes.ascii "<?php " ++ (form ++ Bytes.ascii "a\"")) {}).tokens
      let span : Span := ⟨6, 6 + form.length, 1, 7, {}⟩
      tokens[1]? = some ⟨.char, ⟨6, 7, 1, 7, {}⟩, [Byte.doubleQuote]⟩ ∧
        ∃ parts, (items tokens).head? = some (.ok (.concat parts span)) ∧
          (Expr.concat parts span).constant? = some value := by
  intro value form
  have nothing : value.NamesNothing := by decide
  exact ⟨nothing, (quoted_readBack value).2 nothing (Bytes.ascii "a\"") {}⟩

end Literal

end PageScript
