import PageScript.Proofs.SectionCuts

/-!
# The body of a string, piece by piece

A body is cut in one go: a run of text, then the variable or the terminator at which it
stops.  The loop of a section passes over the text a character at a time and publishes it
when something else begins.  What carries the induction is therefore the spot in the middle
of a run of text: from there the loop publishes the text that is pending together with the
text that follows.
-/

namespace PageScript

namespace Lexeme

/-- What follows a run of text in a body, from where the text stops, and whether the
terminator is the last of it. -/
def afterText (enclosure : Enclosure) (stopped : Bytes) : List Lexeme × Bool :=
  match terminator? enclosure stopped with
  | some closer => ([closer], true)
  | none =>
      if startsVariable stopped then
        let later := body enclosure (stopped.drop (variableLength stopped))
        (⟨.variable, variableLength stopped⟩ :: later.1, later.2)
      else
        ([], false)

variable {enclosure : Enclosure}

theorem afterText_nil : afterText enclosure [] = ([], false) := by
  cases enclosure <;> rfl

/-- No terminator begins with a sigil. -/
theorem terminator?_of_startsVariable {bytes : Bytes} (starts : startsVariable bytes) :
    terminator? enclosure bytes = none := by
  cases bytes with
  | nil => contradiction
  | cons sigil rest =>
      simp only [startsVariable, Bool.and_eq_true, beq_iff_eq] at starts
      rw [starts.1]
      cases enclosure with
      | doubleQuote => rfl
      | backtick => rfl
      | heredoc label =>
          rw [terminator?, Heredoc.closerLength?_of_ne (by decide) (by decide), Option.map_none]

theorem afterText_of_startsVariable {bytes : Bytes} (starts : startsVariable bytes) :
    afterText enclosure bytes =
      let later := body enclosure (bytes.drop (variableLength bytes))
      (⟨.variable, variableLength bytes⟩ :: later.1, later.2) := by
  rw [afterText, terminator?_of_startsVariable starts]
  exact if_pos starts

/-- A body is a run of text and what follows it. -/
theorem body_eq (enclosure : Enclosure) (bytes : Bytes) :
    let size := textLength enclosure bytes
    let later := afterText enclosure (bytes.drop size)
    body enclosure bytes = (bodyText size ++ later.1, later.2) := by
  intro size later
  cases left : bytes.drop size with
  | nil =>
      rw [body_of_cutOff left]
      simp only [later, left, afterText_nil, List.append_nil, size]
  | cons byte rest =>
      simp only [later, left, afterText]
      cases found : terminator? enclosure (byte :: rest) with
      | some closer => exact body_of_closed left found
      | none =>
          have starts : startsVariable (byte :: rest) := by
            simpa [found] using stops_textLength left (List.cons_ne_nil byte rest)
          simp only [if_pos starts]
          exact body_of_variable left starts found

end Lexeme

namespace Spot

/-- A warning about a body does not depend on where it is given. -/
theorem publishAll_warn_body (spot : Spot) (inside : Enclosure) (lexemes : List Lexeme) :
    (spot.warn (.body inside)).publishAll lexemes =
      (spot.publishAll lexemes).warn (.body inside) := by
  induction lexemes generalizing spot with
  | nil => rfl
  | cons lexeme rest ih => exact ih ((spot.move lexeme.size).publish lexeme.kind)

/-- What a body leaves behind, from the middle of a run of text on. -/
def followBody (spot : Spot) (inside : Enclosure) : Spot :=
  let size := Lexeme.textLength inside spot.ahead
  let later := Lexeme.afterText inside (spot.ahead.drop size)
  let published := ((spot.move size).publishPending .bodyText).publishAll later.1
  (bif later.2 then published else published.warn (.body inside)).enclose none

/-- What to work on behind a body, if it is closed. -/
def sectionAfter (spot : Spot) (inside : Enclosure) : Option Section :=
  let size := Lexeme.textLength inside spot.ahead
  bif (Lexeme.afterText inside (spot.ahead.drop size)).2 then some .script else none

variable {spot : Spot} {inside : Enclosure} {count : Nat}

@[simp] theorem ahead_publishPending (spot : Spot) (kind : Kind) :
    (spot.publishPending kind).ahead = spot.ahead := by
  rw [publishPending]
  split <;> rfl

@[simp] theorem enclosure_publishPending (spot : Spot) (kind : Kind) :
    (spot.publishPending kind).enclosure = spot.enclosure := by
  rw [publishPending]
  split <;> rfl

/-- Passing over text makes no difference. -/
theorem followBody_move (passed : Lexeme.textLength inside spot.ahead =
      count + Lexeme.textLength inside (spot.ahead.drop count)) :
    (spot.move count).followBody inside = spot.followBody inside ∧
      (spot.move count).sectionAfter inside = spot.sectionAfter inside := by
  simp only [followBody, sectionAfter, ahead_move, move_move, List.drop_drop, ← passed, and_self]

/-- With nothing pending it is the body that is left. -/
theorem followBody_of_nothing (spot : Spot) (inside : Enclosure) (nothing : spot.held = []) :
    let body := Lexeme.body inside spot.ahead
    let published := spot.publishAll body.1
    spot.followBody inside =
        (bif body.2 then published else published.warn (.body inside)).enclose none ∧
      spot.sectionAfter inside = bif body.2 then some .script else none := by
  have text : (spot.move (Lexeme.textLength inside spot.ahead)).publishPending .bodyText =
      spot.publishAll (Lexeme.bodyText (Lexeme.textLength inside spot.ahead)) :=
    publishPending_move .bodyText nothing (Lexeme.textLength_le inside spot.ahead)
  have whole := Lexeme.body_eq inside spot.ahead
  simp only [followBody, sectionAfter, whole, text, publishAll_append, and_self]

theorem follow_cutBody (inside : Enclosure) (nothing : spot.held = []) :
    let cut := Mode.cutBody inside spot.ahead
    spot.followBody inside = spot.follow cut ∧
      spot.sectionAfter inside = cut.next.map Mode.toSection := by
  intro cut
  obtain ⟨followed, answered⟩ := followBody_of_nothing spot inside nothing
  rw [followed, answered]
  simp only [cut, Mode.cutBody, follow]
  obtain ⟨lexemes, closed⟩ := Lexeme.body inside spot.ahead
  cases closed with
  | true => exact ⟨rfl, rfl⟩
  | false => exact ⟨congrArg (enclose · none) (publishAll_warn_body spot inside lexemes).symm, rfl⟩

end Spot

namespace Work

variable {spot middle after : Spot} {inside : Enclosure} {answer : Option Section}

theorem body_leads_of_last (step : bodyPiece.Leads spot (some answer) after) :
    body.Leads spot answer after := by
  intro width
  obtain ⟨rest, done⟩ := step width
  refine ⟨rest, ?_⟩
  rw [body]
  split
  · next failed => cases failed.symm.trans done
  · next ended =>
      cases ended.symm.trans done
      rfl
  · next onward => cases onward.symm.trans done

theorem body_leads_of_piece (step : bodyPiece.Leads spot none middle)
    (later : body.Leads middle answer after) : body.Leads spot answer after := by
  intro width
  obtain ⟨between, done⟩ := step width
  obtain ⟨rest, last⟩ := later between
  refine ⟨rest, ?_⟩
  rw [body]
  split
  · next failed => cases failed.symm.trans done
  · next ended => cases ended.symm.trans done
  · next onward =>
      cases onward.symm.trans done
      exact last

/-- The piece that stands at the cursor is worked off. -/
theorem bodyPiece_leads {piece : Piece} {last : Option (Option Section)}
    (isInside : spot.enclosure = some inside)
    (here : Work.piece (some inside) spot.ahead = piece)
    (leads : (workOff (some inside) piece).Leads spot last after) :
    bodyPiece.Leads spot last after := by
  subst here
  have first := enclosure_leads spot
  rw [isInside] at first
  exact first.bind ((remaining_leads spot).bind leads)

/-- What is neither an escape nor a variable is the terminator or a character. -/
theorem piece_cases {byte : UInt8} {rest : Bytes} (inside : Enclosure)
    (notBackslash : byte ≠ Byte.backslash) (noVariable : ¬ Lexeme.startsVariable (byte :: rest)) :
    (Lexeme.terminator? inside (byte :: rest) = none ∧
      piece (some inside) (byte :: rest) = .character) ∨
    (Lexeme.terminator? inside (byte :: rest) = some ⟨.char, 1⟩ ∧
      piece (some inside) (byte :: rest) = .quote ∧ ¬ Byte.isNameStart byte) ∨
    ∃ size, Lexeme.terminator? inside (byte :: rest) = some ⟨.heredocEnd, size⟩ ∧
      piece (some inside) (byte :: rest) = .closingLine size := by
  simp only [piece, if_neg notBackslash, if_neg noVariable]
  cases inside with
  | doubleQuote =>
      by_cases quote : byte = Byte.doubleQuote
      · subst quote
        exact .inr (.inl ⟨rfl, if_pos rfl, by decide⟩)
      · simp [Lexeme.terminator?, quote]
  | backtick =>
      by_cases quote : byte = Byte.backtick
      · subst quote
        exact .inr (.inl ⟨rfl, if_pos rfl, by decide⟩)
      · simp [Lexeme.terminator?, quote]
  | heredoc label =>
      simp only [Lexeme.terminator?]
      cases Heredoc.closerLength? label (byte :: rest) with
      | none => exact .inl ⟨rfl, rfl⟩
      | some size => exact .inr (.inr ⟨size, rfl, rfl⟩)

theorem closeBody_leads {readTerminator : Work Unit} {closer : Lexeme}
    (stops : Lexeme.textLength inside spot.ahead = 0)
    (found : Lexeme.terminator? inside spot.ahead = some closer)
    (reads : readTerminator.Leads (spot.publishPending .bodyText) ()
      ((spot.publishPending .bodyText).move closer.size)) :
    (closeBody readTerminator closer.kind).Leads spot
      (spot.sectionAfter inside) (spot.followBody inside) := by
  have later : Lexeme.afterText inside spot.ahead = ([closer], true) := by
    rw [Lexeme.afterText, found]
  simp only [Spot.sectionAfter, Spot.followBody, stops, List.drop_zero, later,
    Spot.move_zero, cond_true]
  exact (emitPending_leads _ _).bind (reads.bind ((emit_leads _ _).bind
    ((enclose_leads _ _).bind (pure_leads _ _))))

theorem cutOffBody_leads (ended : spot.ahead = []) :
    (cutOffBody (some inside)).Leads spot (spot.sectionAfter inside)
      (spot.followBody inside) := by
  have stops : Lexeme.textLength inside spot.ahead = 0 := by rw [ended, Lexeme.textLength]
  have later : Lexeme.afterText inside spot.ahead = ([], false) := by
    rw [ended, Lexeme.afterText_nil]
  simp only [Spot.sectionAfter, Spot.followBody, stops, List.drop_zero, later,
    Spot.move_zero, cond_false]
  exact (emitPending_leads _ _).bind ((warn_leads _ _).bind ((enclose_leads _ _).bind
    (pure_leads _ _)))

/-- The piece that stands at the cursor is text of the body, and is passed over. -/
structure PassesText (spot : Spot) (inside : Enclosure) (count : Nat) : Prop where
  positive : 0 < count
  passed : Lexeme.textLength inside spot.ahead =
    count + Lexeme.textLength inside (spot.ahead.drop count)
  step : bodyPiece.Leads spot none (spot.move count)

theorem escape_leads {rest : Bytes} (isInside : spot.enclosure = some inside)
    (split : spot.ahead = Byte.backslash :: rest) :
    ∃ count, PassesText spot inside count := by
  have here : piece (some inside) spot.ahead = .escape := by
    rw [split]
    rfl
  have one : Lexeme.charLength spot.ahead = 1 := by
    rw [split]
    exact Lexeme.charLength_of_not_isNameStart (by decide) rest
  have left : (spot.move 1).ahead = rest := by simp [split]
  have peeked : keepsBreak (some inside) ((Utf8.next? rest).map (·.1)) =
      Bytes.startsWhere (Lexeme.keepsLineBreak inside) rest := by
    rw [← Lexeme.peeksLineBreak_eq]
    cases inside <;> rfl
  have first := pass_leads spot
  have second := pass_leads (spot.move 1)
  rw [one] at first
  rw [left, Spot.move_move] at second
  by_cases keeps : Bytes.startsWhere (Lexeme.keepsLineBreak inside) rest
  · refine ⟨1, Nat.one_pos, ?_, bodyPiece_leads isInside here ?_⟩
    · rw [split]
      exact Lexeme.textLength_backslash_of_keeps keeps
    · refine first.bind ((peek_leads _).bind ?_)
      rw [left, peeked, if_pos keeps]
      exact pure_leads _ _
  · refine ⟨1 + Lexeme.charLength rest, by omega, ?_, bodyPiece_leads isInside here ?_⟩
    · rw [split]
      exact Lexeme.textLength_backslash keeps
    · refine first.bind ((peek_leads _).bind ?_)
      rw [left, peeked, if_neg keeps]
      exact second.bind (pure_leads _ _)

theorem character_leads {byte : UInt8} {rest : Bytes} (isInside : spot.enclosure = some inside)
    (split : spot.ahead = byte :: rest) (notBackslash : byte ≠ Byte.backslash)
    (noVariable : ¬ Lexeme.startsVariable (byte :: rest))
    (ordinary : Lexeme.terminator? inside (byte :: rest) = none)
    (here : piece (some inside) (byte :: rest) = .character) :
    ∃ count, PassesText spot inside count := by
  obtain ⟨⟨char, size⟩, read⟩ : ∃ pair, Utf8.next? (byte :: rest) = some pair := ⟨_, rfl⟩
  have front := Utf8.isRead_of_next? read
  have plain : char ≠ '\\' := mt (front.eq_iff Byte.backslash (by decide)).mp notBackslash
  refine ⟨size, Utf8.size_pos_of_next? read, ?_, ?_⟩
  · rw [split]
    exact Lexeme.textLength_of_isRead front plain noVariable (by simp [ordinary])
  · rw [← split] at here read
    have reads := pass_leads spot
    rw [Lexeme.charLength_of_next? read] at reads
    exact bodyPiece_leads isInside here (reads.bind (pure_leads _ _))

/-- A variable is published behind the text before it, and the rest of the body follows. -/
theorem sigil_leads (isInside : spot.enclosure = some inside)
    (starts : Lexeme.startsVariable spot.ahead) :
    let later := ((spot.publishPending .bodyText).move
      (Lexeme.variableLength spot.ahead)).publish .variable
    bodyPiece.Leads spot none later ∧
      later.followBody inside = spot.followBody inside ∧
      later.sectionAfter inside = spot.sectionAfter inside := by
  intro later
  obtain ⟨here, stops⟩ : piece (some inside) spot.ahead = .sigil ∧
      Lexeme.textLength inside spot.ahead = 0 := by
    cases split : spot.ahead with
    | nil => simp [split, Lexeme.startsVariable] at starts
    | cons sigil rest =>
        rw [split] at starts
        have notBackslash : sigil ≠ Byte.backslash := by
          simp only [Lexeme.startsVariable, Bool.and_eq_true, beq_iff_eq] at starts
          rw [starts.1]
          decide
        constructor
        · simp only [piece, if_neg notBackslash, if_pos starts]
        · exact Lexeme.textLength_eq_zero notBackslash (.inl starts)
  have reads : readVariable.Leads (spot.publishPending .bodyText) () _ :=
    readVariable_leads (by rwa [Spot.ahead_publishPending])
  rw [Spot.ahead_publishPending] at reads
  refine ⟨bodyPiece_leads isInside here ?_, ?_⟩
  · have read : interpolate.Leads spot () later :=
      (emitPending_leads _ _).bind (reads.bind (emit_leads _ _))
    exact read.bind (pure_leads _ _)
  · obtain ⟨followed, answered⟩ := later.followBody_of_nothing inside rfl
    have left : later.ahead = spot.ahead.drop (Lexeme.variableLength spot.ahead) := by
      simp [later, Spot.publish]
    rw [followed, answered]
    simp only [Spot.followBody, Spot.sectionAfter, stops, List.drop_zero, Spot.move_zero,
      Lexeme.afterText_of_startsVariable starts, left, and_true]
    rfl

/-- The loop of a body publishes what is pending and what the body is cut into. -/
theorem body_leads (isInside : spot.enclosure = some inside) :
    body.Leads spot (spot.sectionAfter inside)
      (spot.followBody inside) := by
  induction total : spot.ahead.length using Nat.strong_induction_on generalizing spot with
  | h length ih =>
      -- Text that is passed over is shorter, and the loop goes on behind it.
      have onward {count : Nat} (left : spot.ahead ≠ []) (text : PassesText spot inside count) :
          body.Leads spot (spot.sectionAfter inside) (spot.followBody inside) := by
        have positive := text.positive
        have nonempty := List.length_pos_iff.mpr left
        have shorter : (spot.move count).ahead.length < length := by
          rw [Spot.ahead_move, List.length_drop]
          omega
        obtain ⟨same, closes⟩ := Spot.followBody_move text.passed
        rw [← same, ← closes]
        exact body_leads_of_piece text.step (ih _ shorter isInside rfl)
      cases split : spot.ahead with
      | nil =>
          have here : piece (some inside) spot.ahead = .nothing := by rw [split]; rfl
          refine body_leads_of_last (bodyPiece_leads isInside here ?_)
          exact (cutOffBody_leads split).bind (pure_leads _ _)
      | cons byte rest =>
          have left : spot.ahead ≠ [] := by simp [split]
          by_cases backslash : byte = Byte.backslash
          · obtain ⟨count, text⟩ := escape_leads isInside (split.trans (by rw [backslash]))
            exact onward left text
          by_cases starts : Lexeme.startsVariable spot.ahead
          · obtain ⟨step, followed, answered⟩ := sigil_leads isInside starts
            rw [← followed, ← answered]
            refine body_leads_of_piece step (ih _ ?_ ?_ rfl)
            · have positive : 0 < Lexeme.variableLength spot.ahead := by
                rw [Lexeme.variableLength]
                omega
              have nonempty := List.length_pos_iff.mpr left
              simp only [Spot.publish, Spot.ahead_move, Spot.ahead_publishPending, List.length_drop]
              omega
            · simp [Spot.publish, Spot.move, isInside]
          rw [split] at starts
          obtain ⟨ordinary, here⟩ | ⟨found, here, noName⟩ | ⟨size, found, here⟩ :=
            piece_cases inside backslash starts
          · obtain ⟨count, text⟩ :=
              character_leads isInside split backslash starts ordinary here
            exact onward left text
          · have one : Lexeme.charLength spot.ahead = 1 := by
              rw [split]
              exact Lexeme.charLength_of_not_isNameStart noName rest
            have stops : Lexeme.textLength inside spot.ahead = 0 := by
              rw [split]
              exact Lexeme.textLength_eq_zero backslash (.inr (by rw [found]; rfl))
            rw [← split] at found here
            have reads := pass_leads (spot.publishPending .bodyText)
            rw [Spot.ahead_publishPending, one] at reads
            refine body_leads_of_last (bodyPiece_leads isInside here ?_)
            exact (closeBody_leads stops found reads).bind (pure_leads _ _)
          · have stops : Lexeme.textLength inside spot.ahead = 0 := by
              rw [split]
              exact Lexeme.textLength_eq_zero backslash (.inr (by rw [found]; rfl))
            rw [← split] at found here
            refine body_leads_of_last (bodyPiece_leads isInside here ?_)
            exact (closeBody_leads stops found (skip_leads _ _)).bind (pure_leads _ _)

/-- The section of a body does what is cut in its mode. -/
theorem body_follows (isInside : spot.enclosure = some inside) (nothing : spot.held = []) :
    body.Follows spot (Mode.cutBody inside spot.ahead) := by
  obtain ⟨followed, answered⟩ := Spot.follow_cutBody inside nothing
  rw [Follows, ← followed, ← answered]
  exact body_leads isInside

/-- What a section publishes and leaves is what is cut in its mode. -/
theorem work_follows (mode : Mode) (isInside : spot.enclosure = mode.enclosure?)
    (nothing : spot.held = []) :
    mode.toSection.work.Follows spot (mode.cut spot.ahead) := by
  cases mode with
  | text => exact text_follows ⟨nothing, isInside⟩
  | script => exact script_follows ⟨nothing, isInside⟩
  | body inside => exact body_follows isInside nothing

end Work

end PageScript
