import PageScript.Proofs.SectionWork

/-!
# Sections do the work of modes

What a mode cuts from the bytes left is what the section works off with the operations of its
cursor: it publishes the same pieces, gives the same warning, and leaves the enclosure of the
mode that comes next.  This is shown construct by construct, in the order in which a script
tells them apart.  Characters and bytes agree on where each of them ends.
-/

namespace PageScript

/-- Nothing is pending, and the scan is outside of every string. -/
structure Spot.IsOutside (spot : Spot) : Prop where
  nothing : spot.held = []
  outside : spot.enclosure = none

theorem Spot.enclosure_publishAll (spot : Spot) (lexemes : List Lexeme) :
    (spot.publishAll lexemes).enclosure = spot.enclosure := by
  induction lexemes generalizing spot with
  | nil => rfl
  | cons lexeme rest ih => exact ih _

theorem Spot.enclosure_warnIf (spot : Spot) (unterminated : Option Unterminated) :
    (spot.warnIf unterminated).enclosure = spot.enclosure := by
  cases unterminated <;> rfl

/-- A cut that is followed by no body leaves the enclosure alone. -/
theorem Spot.IsOutside.follow_eq {spot : Spot} {cut : Cut} (isOutside : spot.IsOutside)
    (stays : cut.next.bind Mode.enclosure? = none) :
    spot.follow cut = (spot.warnIf cut.unterminated).publishAll cut.lexemes := by
  have kept : ((spot.warnIf cut.unterminated).publishAll cut.lexemes).enclosure = none := by
    rw [enclosure_publishAll, enclosure_warnIf, isOutside.outside]
  rw [follow, stays, ← kept]
  rfl

/-- What holds of every code holds of every byte. -/
theorem Byte.of_codes {property : UInt8 → Prop}
    (all : ∀ code : Fin 256, property (UInt8.ofNat code.val)) (byte : UInt8) : property byte := by
  have here := all ⟨byte.toNat, byte.toNat_lt⟩
  rwa [UInt8.ofNat_toNat] at here

/-- Accepting listed ASCII characters moves over the run of a class that lists their bytes. -/
theorem Cursor.charRun_eq_of_class {chars : List Char} {accept : UInt8 → Bool}
    (small : chars.all (·.toNat < 0x80))
    (same : ∀ byte, (chars.map Byte.ofChar).contains byte = accept byte) (bytes : Bytes) :
    charRun (chars.contains ·) bytes = Bytes.runLength accept bytes := by
  have ascii : ∀ char ∈ chars, char.toNat < 0x80 := by simpa using small
  exact (charRun_contains ascii bytes).trans (congrArg (Bytes.runLength · bytes) (funext same))

namespace Work

variable {spot : Spot} {work other : Work (Option Section)} {cut otherCut : Cut}
  {first : UInt8} {rest : Bytes}

/-- Work does what a cut says, and names the section of the mode that is next. -/
def Follows (work : Work (Option Section)) (spot : Spot) (cut : Cut) : Prop :=
  work.Leads spot (cut.next.map Mode.toSection) (spot.follow cut)

theorem Follows.ite {condition : Prop} [Decidable condition]
    (yes : condition → work.Follows spot cut) (no : ¬ condition → other.Follows spot otherCut) :
    Follows (if condition then work else other) spot (if condition then cut else otherCut) := by
  by_cases holds : condition
  · rw [if_pos holds, if_pos holds]
    exact yes holds
  · rw [if_neg holds, if_neg holds]
    exact no holds

/-- A construct of one piece, behind which the script goes on. -/
theorem follows_one {read : Work Unit} {kind : Kind} {size : Nat} (isOutside : spot.IsOutside)
    (reads : read.Leads spot () (spot.move size)) :
    Follows (do read; emit kind; return some .script) spot (.one kind size) := by
  rw [Follows, isOutside.follow_eq rfl]
  exact reads.bind ((emit_leads _ kind).bind (pure_leads _ _))

/-! ### Text -/

theorem text_follows (isOutside : spot.IsOutside) :
    text.Follows spot (Mode.cutText spot.ahead) := by
  have html {size : Nat} (fits : size ≤ spot.ahead.length) :=
    Spot.publishPending_move .inlineHtml isOutside.nothing fits
  refine (remaining_leads spot).bind ?_
  rw [Mode.cutText]
  cases search : Lexeme.firstTag? spot.ahead 0 with
  | some found =>
      obtain ⟨offset, tag⟩ := found
      have fits := (Lexeme.firstTag?_eq_some (.zero _) search).1.size_le
      simp only
      rw [isOutside.follow_eq rfl, Spot.publishAll_append]
      refine (skip_leads spot _).bind ((emitPending_leads _ _).bind ?_)
      rw [html fits]
      exact (skip_leads _ _).bind ((emit_leads _ _).bind (pure_leads _ _))
  | none =>
      simp only
      rw [isOutside.follow_eq rfl]
      refine (skip_leads spot _).bind ((emitPending_leads _ _).bind ?_)
      rw [html (Nat.le_refl _)]
      exact pure_leads _ _

/-! ### Script -/

theorem whitespace_follows (isOutside : spot.IsOutside) :
    Follows (do acceptRun [' ', '\t', '\n', '\r']; emit .whitespace; return some .script) spot
      (.one .whitespace (Bytes.runLength Byte.isSpace spot.ahead)) := by
  have run : Cursor.charRun ([' ', '\t', '\n', '\r'].contains ·) spot.ahead =
      Bytes.runLength Byte.isSpace spot.ahead :=
    Cursor.charRun_eq_of_class (by decide) (Byte.of_codes (by decide +kernel)) spot.ahead
  rw [← run]
  exact follows_one isOutside (acceptWhile_leads spot _)

theorem closeTag_follows (isOutside : spot.IsOutside) :
    closeTag.Follows spot
      { lexemes := [⟨.closeTag, Lexeme.closeTagLength spot.ahead⟩], next := some .text } := by
  rw [Follows, isOutside.follow_eq rfl]
  refine (skip_leads spot 2).bind ((remaining_leads _).bind ((skip_leads _ _).bind ?_))
  rw [Spot.move_move]
  exact (emit_leads _ _).bind (pure_leads _ _)

theorem lineComment_follows (isOutside : spot.IsOutside) :
    lineComment.Follows spot (.one .comment (Lexeme.lineCommentLength spot.ahead)) :=
  (remaining_leads spot).bind (follows_one isOutside (skip_leads spot _))

theorem blockComment_follows (isOutside : spot.IsOutside) :
    blockComment.Follows spot (Mode.cutBlockComment spot.ahead) := by
  refine (remaining_leads spot).bind ?_
  rw [Mode.cutBlockComment]
  cases found : Lexeme.blockCommentLength? spot.ahead with
  | some size =>
      refine follows_one isOutside ((remaining_leads spot).bind ?_)
      simp only [found]
      exact skip_leads spot size
  | none =>
      rw [isOutside.follow_eq rfl]
      have reads : readBlockComment.Leads spot ()
          ((spot.warn .comment).move spot.ahead.length) := by
        refine (remaining_leads spot).bind ?_
        simp only [found]
        exact (warn_leads spot .comment).bind (skip_leads _ _)
      exact reads.bind ((emit_leads _ _).bind (pure_leads _ _))

/-- The sigil is one character, and the name is read by characters. -/
theorem readVariable_leads (starts : Lexeme.startsVariable spot.ahead) :
    readVariable.Leads spot () (spot.move (Lexeme.variableLength spot.ahead)) := by
  cases split : spot.ahead with
  | nil => simp [split, Lexeme.startsVariable] at starts
  | cons sigil tail =>
      simp only [split, Lexeme.startsVariable, Bool.and_eq_true, beq_iff_eq] at starts
      have one : Lexeme.charLength spot.ahead = 1 := by
        rw [split, starts.1]
        exact Lexeme.charLength_of_not_isNameStart (by decide) tail
      have name := Cursor.charRun_eq_nameLength starts.2
      have left : (spot.move 1).ahead = tail := by simp [Spot.move, split]
      refine (pass_leads spot).bind ?_
      rw [one]
      have reads := acceptWhile_leads (spot.move 1) Text.isNamePart
      rw [left, name, Spot.move_move] at reads
      exact reads

theorem sigiled_follows (isOutside : spot.IsOutside)
    (starts : Lexeme.startsVariable spot.ahead) :
    sigiled.Follows spot (.one .variable (Lexeme.variableLength spot.ahead)) :=
  follows_one isOutside (readVariable_leads starts)

theorem name_follows (isOutside : spot.IsOutside)
    (starts : Bytes.startsWhere Byte.isNameStart spot.ahead) :
    name.Follows spot
      (.one (Kind.ofName (spot.ahead.take (Bytes.nameLength spot.ahead)))
        (Bytes.nameLength spot.ahead)) := by
  rw [Follows, isOutside.follow_eq rfl, ← Cursor.charRun_eq_nameLength starts]
  refine (acceptWhile_leads spot _).bind ((pending_leads _).bind ?_)
  have held (count : Nat) : (spot.move count).held = spot.ahead.take count := by
    simp [Spot.move, isOutside.nothing]
  rw [held]
  exact (emit_leads _ _).bind (pure_leads _ _)

theorem singleQuoted_follows (isOutside : spot.IsOutside)
    (split : spot.ahead = Byte.singleQuote :: rest) :
    singleQuoted.Follows spot (Mode.cutSingleQuoted spot.ahead) := by
  have one : Lexeme.charLength spot.ahead = 1 := by
    rw [split]
    exact Lexeme.charLength_of_not_isNameStart (by decide) rest
  have left : (spot.move 1).ahead = rest := by simp [Spot.move, split]
  have reads := readQuoted_leads (spot.move 1)
  simp only [left, Lexeme.readQuoted?_eq, Spot.move_move] at reads
  have dropped : spot.ahead.drop 1 = rest := by simp [split]
  refine (pass_leads spot).bind ?_
  rw [one]
  refine reads.bind ?_
  rw [Mode.cutSingleQuoted, dropped]
  cases found : Lexeme.singleQuoteLength? rest with
  | some size =>
      rw [isOutside.follow_eq rfl, Option.getD_some, Nat.add_comm]
      exact (emit_leads _ _).bind (pure_leads _ _)
  | none =>
      have whole : 1 + rest.length = spot.ahead.length := by
        rw [split, List.length_cons, Nat.add_comm]
      rw [isOutside.follow_eq rfl, Option.getD_none, whole]
      exact (warn_leads _ _).bind ((emit_leads _ _).bind (pure_leads _ _))

/-- The quote that opens a string, with the body that follows. -/
theorem openBody_follows {quote : UInt8} (inside : Enclosure)
    (noName : ¬ Byte.isNameStart quote) (split : spot.ahead = quote :: rest) :
    (openBody inside).Follows spot { lexemes := [⟨.char, 1⟩], next := some (.body inside) } := by
  have one : Lexeme.charLength spot.ahead = 1 := by
    rw [split]
    exact Lexeme.charLength_of_not_isNameStart noName rest
  refine (pass_leads spot).bind ?_
  rw [one]
  exact (emit_leads _ _).bind ((enclose_leads _ _).bind (pure_leads _ _))

theorem operator_follows (isOutside : spot.IsOutside) (noName : ¬ Byte.isNameStart first)
    (split : spot.ahead = first :: rest) :
    operator.Follows spot (Mode.cutOperator spot.ahead) := by
  refine (remaining_leads spot).bind ?_
  rw [Mode.cutOperator, Lexeme.operator, isOutside.follow_eq rfl]
  cases found : Lexeme.operators.find? (·.isPrefixOf spot.ahead) with
  | some text => exact (skip_leads spot _).bind ((emit_leads _ _).bind (pure_leads _ _))
  | none =>
      have one : Lexeme.charLength spot.ahead = 1 := by
        rw [split]
        exact Lexeme.charLength_of_not_isNameStart noName rest
      obtain ⟨pair, read⟩ : ∃ pair, Utf8.next? spot.ahead = some pair := by
        rw [split]
        exact ⟨_, rfl⟩
      refine (next_leads spot).bind ?_
      rw [one, read]
      exact (emit_leads _ _).bind (pure_leads _ _)

theorem heredoc_follows (isOutside : spot.IsOutside) (noName : ¬ Byte.isNameStart first)
    (split : spot.ahead = first :: rest) :
    heredoc.Follows spot (Mode.cutHeredoc spot.ahead) := by
  refine (remaining_leads spot).bind ?_
  rw [Mode.cutHeredoc]
  cases found : Heredoc.header? spot.ahead with
  | none => exact operator_follows isOutside noName split
  | some header =>
      have left : ((spot.move header.size).publish .heredocStart).ahead =
          spot.ahead.drop header.size := rfl
      simp only
      cases closing : Heredoc.closingLength? header.label (spot.ahead.drop header.size) with
      | some size =>
          rw [isOutside.follow_eq rfl]
          refine (skip_leads spot _).bind ((emit_leads _ _).bind ((remaining_leads _).bind ?_))
          simp only [left, closing]
          exact (skip_leads _ _).bind ((emit_leads _ _).bind (pure_leads _ _))
      | none =>
          refine (skip_leads spot _).bind ((emit_leads _ _).bind ((remaining_leads _).bind ?_))
          simp only [left, closing]
          exact (enclose_leads _ _).bind (pure_leads _ _)

/-! ### Numbers -/

theorem charRun_decimalDigits (bytes : Bytes) :
    Cursor.charRun (decimalDigits.contains ·) bytes = Lexeme.digitRun Byte.isDigit bytes :=
  Cursor.charRun_eq_of_class (by decide) (Byte.of_codes (by decide +kernel)) bytes

theorem charRun_radices {radix : Char × (UInt8 → Bool) × List Char} (member : radix ∈ radices)
    (bytes : Bytes) :
    Cursor.charRun (radix.2.2.contains ·) bytes = Lexeme.digitRun radix.2.1 bytes := by
  simp only [radices, List.mem_cons, List.not_mem_nil, or_false] at member
  obtain rfl | rfl | rfl := member
  all_goals exact Cursor.charRun_eq_of_class (by decide) (Byte.of_codes (by decide +kernel)) bytes

/-- The digits behind a radix marker are those of the radix. -/
theorem radixDigits?_eq (bytes : Bytes) :
    (radixDigits? bytes).map (fun digits =>
      2 + Cursor.charRun (digits.contains ·) (bytes.drop 2)) = Lexeme.radixLength? bytes := by
  match bytes with
  | [] => rfl
  | [_] => rfl
  | first :: letter :: digits =>
      by_cases zero : first = Byte.zero
      · simp only [radixDigits?, Lexeme.radixLength?, if_pos zero, Lexeme.radixDigit?]
        rw [Option.map_map]
        have run (radix) (member : radix ∈ radices) := charRun_radices member digits
        simp only [radices, List.forall_mem_cons] at run
        obtain ⟨hex, binary, octal, -⟩ := run
        have letters : Byte.ofChar 'x' ≠ Byte.ofChar 'b' ∧ Byte.ofChar 'x' ≠ Byte.ofChar 'o' ∧
            Byte.ofChar 'b' ≠ Byte.ofChar 'o' := by decide
        by_cases x : Byte.toLower letter = Byte.ofChar 'x'
        · by_cases starts : Bytes.startsWhere Byte.isHexDigit digits
          · simp [radices, x, starts, ← hex]
          · simp [radices, x, starts, letters]
        by_cases b : Byte.toLower letter = Byte.ofChar 'b'
        · by_cases starts : Bytes.startsWhere Byte.isBinaryDigit digits
          · simp [radices, b, starts, ← binary, letters.1.symm]
          · simp [radices, b, starts, letters, letters.1.symm]
        by_cases o : Byte.toLower letter = Byte.ofChar 'o'
        · by_cases starts : Bytes.startsWhere Byte.isOctalDigit digits
          · simp [radices, o, starts, ← octal, letters.2.1.symm, letters.2.2.symm]
          · simp [radices, o, starts, letters.2.1.symm, letters.2.2.symm]
        · simp [radices, x, b, o]
      · simp [radixDigits?, Lexeme.radixLength?, zero]

theorem fractionLength_eq_zero_iff (bytes : Bytes) :
    Lexeme.fractionLength bytes = 0 ↔ ¬ bytes.startsWhere (· == Byte.dot) := by
  cases bytes with
  | nil => simp [Lexeme.fractionLength]
  | cons byte rest =>
      by_cases dot : byte = Byte.dot
      · simp [Lexeme.fractionLength, dot]
      · simp [Lexeme.fractionLength, dot]

theorem readFraction_leads (spot : Spot) :
    readFraction.Leads spot (spot.ahead.startsWhere (· == Byte.dot))
      (spot.move (Lexeme.fractionLength spot.ahead)) := by
  have agree : Cursor.Agree (['.'].contains ·) ((['.'].map Byte.ofChar).contains ·) false :=
    Cursor.agree_contains (by simp)
  have taken : ((Utf8.next? spot.ahead).map (·.1)).any (['.'].contains ·) =
      spot.ahead.startsWhere (· == Byte.dot) := by
    have peeked := Cursor.peek_any agree (Cursor.ofBytes spot.ahead)
    have same : (fun byte => (['.'].map Byte.ofChar).contains byte) = (· == Byte.dot) :=
      funext (Byte.of_codes (by decide +kernel))
    rwa [same] at peeked
  refine (accept_leads ['.'] spot).bind ?_
  rw [taken]
  by_cases dotted : spot.ahead.startsWhere (· == Byte.dot)
  · obtain ⟨byte, rest, left, isDot⟩ := Bytes.exists_cons_of_startsWhere dotted
    rw [beq_iff_eq.mp isDot] at left
    have one : Lexeme.charLength spot.ahead = 1 := by
      rw [left]
      exact Lexeme.charLength_of_not_isNameStart (by decide) rest
    have reads := acceptWhile_leads (spot.move 1) (decimalDigits.contains ·)
    have fraction : Lexeme.fractionLength spot.ahead =
        1 + Lexeme.digitRun Byte.isDigit (spot.ahead.drop 1) := by
      simp [left, Lexeme.fractionLength]
    rw [charRun_decimalDigits, Spot.ahead_move, Spot.move_move, ← fraction] at reads
    rw [if_pos dotted, if_pos dotted, one, dotted]
    exact reads.bind (pure_leads _ _)
  · rw [if_neg dotted, if_neg dotted, (fractionLength_eq_zero_iff _).mpr dotted, Spot.move_zero,
      Bool.eq_false_iff.mpr dotted]
    exact pure_leads _ _

/-- The digits behind an exponent marker are those of the exponent. -/
theorem exponentMarker?_eq (bytes : Bytes) :
    (exponentMarker? bytes).map (fun marker =>
      marker + Cursor.charRun (decimalDigits.contains ·) (bytes.drop marker)) =
        Lexeme.exponentLength? bytes := by
  cases bytes with
  | nil => rfl
  | cons letter rest =>
      have behind : (letter :: rest).drop (1 + Lexeme.signLength rest) =
          rest.drop (Lexeme.signLength rest) := by
        rw [Nat.add_comm, List.drop_succ_cons]
      simp only [exponentMarker?, Lexeme.exponentLength?, charRun_decimalDigits]
      split
      · rw [Option.map_some, behind]
      · rfl

theorem readExponent_leads (spot : Spot) :
    let length? := Lexeme.exponentLength? spot.ahead
    readExponent.Leads spot length?.isSome (spot.move (length?.getD 0)) := by
  rw [← exponentMarker?_eq]
  refine (remaining_leads spot).bind ?_
  cases exponentMarker? spot.ahead with
  | some marker =>
      have reads := acceptWhile_leads (spot.move marker) (decimalDigits.contains ·)
      rw [Spot.move_move] at reads
      exact (skip_leads spot marker).bind (reads.bind (pure_leads _ _))
  | none =>
      rw [Option.map_none, Option.getD_none, Spot.move_zero]
      exact pure_leads _ _

theorem readNumber_leads (spot : Spot) :
    readNumber.Leads spot (Lexeme.number spot.ahead).kind
      (spot.move (Lexeme.number spot.ahead).size) := by
  have radix := radixDigits?_eq spot.ahead
  refine (remaining_leads spot).bind ?_
  rw [Lexeme.number, ← radix]
  cases radixDigits? spot.ahead with
  | some digits =>
      have reads := acceptWhile_leads (spot.move 2) (digits.contains ·)
      rw [Spot.move_move] at reads
      exact (skip_leads spot 2).bind (reads.bind (pure_leads _ _))
  | none =>
      have whole := acceptWhile_leads spot (decimalDigits.contains ·)
      rw [charRun_decimalDigits] at whole
      refine whole.bind ((readFraction_leads _).bind ((readExponent_leads _).bind ?_))
      simp only [Spot.move_move, Spot.ahead_move, Option.map_none, Lexeme.decimalNumber]
      have dotted :=
        fractionLength_eq_zero_iff (spot.ahead.drop (Lexeme.digitRun Byte.isDigit spot.ahead))
      cases Lexeme.exponentLength? (spot.ahead.drop _) with
      | some exponent =>
          simp only [Option.isSome_some, Bool.or_true, if_true, Option.getD_some]
          exact pure_leads _ _
      | none =>
          simp only [Option.isSome_none, Bool.or_false, Option.getD_none, Nat.add_zero]
          by_cases zero :
              Lexeme.fractionLength (spot.ahead.drop (Lexeme.digitRun Byte.isDigit spot.ahead)) = 0
          · rw [if_pos zero, if_neg (dotted.mp zero)]
            exact pure_leads _ _
          · rw [if_neg zero, if_pos (not_not.mp (mt dotted.mpr zero))]
            exact pure_leads _ _

theorem number_follows (isOutside : spot.IsOutside) :
    number.Follows spot { lexemes := [Lexeme.number spot.ahead], next := some .script } := by
  rw [Follows, isOutside.follow_eq rfl]
  exact (readNumber_leads spot).bind ((emit_leads _ _).bind (pure_leads _ _))

/-! ### Dispatch -/

theorem agree_isNameStart : Cursor.Agree Text.isNameStart Byte.isNameStart true where
  ascii := by
    intro byte small
    have same : ∀ byte, (Byte.isNamePart byte && !Byte.isDigit byte) = Byte.isNameStart byte :=
      Byte.of_codes (by decide +kernel)
    rw [Cursor.agree_isNameStart.ascii byte small, same]
  char := Cursor.agree_isNameStart.char
  byte := by
    intro byte large
    simp [Byte.isNameStart, large]

/-- A script is worked off construct by construct. -/
theorem script_follows (isOutside : spot.IsOutside) :
    script.Follows spot (Mode.cutScript spot.ahead) := by
  refine (remaining_leads spot).bind ?_
  cases left : spot.ahead with
  | nil =>
      rw [Mode.cutScript, isOutside.follow_eq rfl]
      exact pure_leads _ _
  | cons first rest =>
      change Follows _ spot _
      simp only [Mode.cutScript]
      refine .ite (fun _ => left ▸ whitespace_follows isOutside) fun _ => ?_
      refine .ite (fun _ => left ▸ closeTag_follows isOutside) fun _ => ?_
      refine .ite (fun _ => left ▸ lineComment_follows isOutside) fun _ => ?_
      refine .ite (fun _ => left ▸ blockComment_follows isOutside) fun _ => ?_
      refine .ite (fun starts => left ▸ sigiled_follows isOutside (left ▸ starts)) fun _ => ?_
      refine .ite (fun _ => left ▸ number_follows isOutside) fun noDigit => ?_
      refine .ite (fun single => ?_) fun _ => ?_
      · rw [← left]
        exact singleQuoted_follows isOutside (left.trans (by rw [single]))
      refine .ite (fun double => openBody_follows _ (double ▸ by decide) left) fun _ => ?_
      refine .ite (fun backtick => openBody_follows _ (backtick ▸ by decide) left) fun _ => ?_
      by_cases opens : Heredoc.opener.isPrefixOf (first :: rest)
      · have noName : ¬ Byte.isNameStart first := by
          have less : Heredoc.opener = Byte.less :: [Byte.less, Byte.less] := by decide
          rw [less, List.isPrefixOf_cons_cons, Bool.and_eq_true, beq_iff_eq] at opens
          rw [← opens.1]
          decide
        rw [if_pos opens, if_neg noName]
        exact left ▸ heredoc_follows isOutside noName left
      · have peeked := Cursor.peek_any agree_isNameStart (Cursor.ofBytes spot.ahead)
        have plain : Mode.cutHeredoc (first :: rest) = Mode.cutOperator (first :: rest) := by
          rw [Mode.cutHeredoc, Heredoc.header?, if_neg opens]
        rw [if_neg opens, plain]
        refine (peek_leads spot).bind ?_
        have same : ((Utf8.next? spot.ahead).map (·.1)).any Text.isNameStart =
            Byte.isNameStart first := by
          rw [left] at peeked ⊢
          exact peeked
        rw [same]
        refine Follows.ite (fun starts => left ▸ name_follows isOutside ?_) fun noName => ?_
        · rwa [left]
        · exact left ▸ operator_follows isOutside noName left

end Work

end PageScript
