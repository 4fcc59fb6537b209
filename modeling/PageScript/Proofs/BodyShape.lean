import PageScript.Proofs.Fit

/-!
# The shape of a body

The body of a string is a run of text, or a run of text, a variable and the rest of
the body.  It goes on up to the terminator or the end of the page.  `Lexeme.IsParts`
says so with the bytes themselves in place of their numbers, and everything known about
bodies is proved by induction over it.
-/

namespace PageScript.Lexeme

/-- A variable: the sigil and a name. -/
def IsVariable (bytes : Bytes) : Prop :=
  ∃ name : Bytes, bytes = Byte.dollar :: name ∧ name.IsName

/-- A variable at the front splits off, up to where its name goes on no longer. -/
theorem exists_variable {bytes : Bytes} (starts : startsVariable bytes) :
    ∃ sigiled rest, bytes = sigiled ++ rest ∧ IsVariable sigiled ∧
      ¬ rest.startsWhere Byte.isNamePart ∧ variableLength bytes = sigiled.length := by
  cases bytes with
  | nil => contradiction
  | cons byte tail =>
      simp only [startsVariable, Bool.and_eq_true, beq_iff_eq] at starts
      obtain ⟨rfl, nameStarts⟩ := starts
      obtain ⟨name, rest, rfl, isName, stops, length⟩ :=
        Bytes.exists_name (Nat.ne_of_gt (Bytes.nameLength_pos nameStarts))
      refine ⟨Byte.dollar :: name, rest, rfl, ⟨name, rfl, isName⟩, stops, ?_⟩
      simp [variableLength, length, Nat.add_comm]

section

variable {enclosure : Enclosure} {byte : UInt8} {rest : Bytes}

theorem textLength_backslash_cons (following : UInt8) (after : Bytes) :
    textLength enclosure (Byte.backslash :: following :: after) =
      if Bytes.startsWhere (keepsLineBreak enclosure) (following :: after) then
        textLength enclosure (following :: after) + 1
      else
        textLength enclosure after + 2 := by
  rw [textLength, if_pos rfl]
  rfl

/-- A run of text goes on behind any other byte that begins no variable and no
terminator. -/
theorem textLength_of_ne (notBackslash : byte ≠ Byte.backslash)
    (noVariable : ¬ startsVariable (byte :: rest))
    (noTerminator : ¬ (terminator? enclosure (byte :: rest)).isSome) :
    textLength enclosure (byte :: rest) = textLength enclosure rest + 1 := by
  rw [textLength.eq_def]
  simp only [if_neg notBackslash, if_neg noVariable, if_neg noTerminator]

theorem textLength_eq_zero (notBackslash : byte ≠ Byte.backslash)
    (stops : startsVariable (byte :: rest) ∨ (terminator? enclosure (byte :: rest)).isSome) :
    textLength enclosure (byte :: rest) = 0 := by
  rw [textLength.eq_def]
  simp only [if_neg notBackslash]
  rcases stops with starts | terminator
  · exact if_pos starts
  · simp only [if_pos terminator, ite_self]

end

theorem textLength_le (enclosure : Enclosure) (bytes : Bytes) :
    textLength enclosure bytes ≤ bytes.length := by
  fun_induction textLength enclosure bytes with
  | case1 => exact Nat.le_refl _
  | case2 => simp
  | case3 following after _ ih => simpa using ih
  | case4 following after _ ih =>
      simp only [List.length_cons]
      omega
  | case5 => exact Nat.zero_le _
  | case6 => exact Nat.zero_le _
  | case7 byte rest _ _ _ ih => simpa using ih

/-- A run of text stops at a variable, at the terminator or at the end. -/
theorem stops_textLength {enclosure : Enclosure} {bytes stopped : Bytes}
    (left : bytes.drop (textLength enclosure bytes) = stopped) (nonempty : stopped ≠ []) :
    startsVariable stopped ∨ (terminator? enclosure stopped).isSome := by
  fun_induction textLength enclosure bytes with
  | case1 => exact absurd left.symm nonempty
  | case2 => exact absurd left.symm nonempty
  | case3 following after _ ih => exact ih (by simpa using left)
  | case4 following after _ ih => exact ih (by simpa using left)
  | case5 byte rest _ starts =>
      subst left
      exact .inl starts
  | case6 byte rest _ _ ends =>
      subst left
      exact .inr ends
  | case7 byte rest _ _ _ ih => exact ih (by simpa using left)

section

variable {enclosure : Enclosure} {bytes stopped : Bytes} {closer : Lexeme}

/-- A body that is text up to the end of the page. -/
theorem body_of_cutOff (left : bytes.drop (textLength enclosure bytes) = []) :
    body enclosure bytes = (bodyText (textLength enclosure bytes), false) := by
  rw [body.eq_def]
  simp only
  split
  · rfl
  · next split => simp [left] at split

/-- A body that is text up to its terminator. -/
theorem body_of_closed (left : bytes.drop (textLength enclosure bytes) = stopped)
    (found : terminator? enclosure stopped = some closer) :
    body enclosure bytes = (bodyText (textLength enclosure bytes) ++ [closer], true) := by
  subst left
  have fits := terminator?_fits found
  rw [body.eq_def]
  simp only
  split
  · next ended =>
      rw [ended] at fits
      exact absurd fits.size_le (Nat.not_le.mpr fits.positive)
  · next first after split =>
      rw [split] at found
      simp only [found]

/-- A body that goes on behind text and a variable. -/
theorem body_of_variable (left : bytes.drop (textLength enclosure bytes) = stopped)
    (starts : startsVariable stopped) (missing : terminator? enclosure stopped = none) :
    body enclosure bytes =
      let later := body enclosure (stopped.drop (variableLength stopped))
      (bodyText (textLength enclosure bytes) ++ ⟨.variable, variableLength stopped⟩ :: later.1,
        later.2) := by
  subst left
  rw [body.eq_def]
  simp only
  split
  · next ended => simp [ended, startsVariable] at starts
  · next first after split =>
      rw [split] at missing ⊢
      have onward : (first :: after).drop (variableLength (first :: after)) =
          after.drop (variableLength (first :: after) - 1) := by
        rw [variableLength, Nat.add_comm, List.drop_succ_cons, Nat.add_sub_cancel]
      simp only [missing, onward]

end

/-- How the bytes of a body, up to the bytes it stops at, are cut into lexemes. -/
inductive IsParts (enclosure : Enclosure) : Bytes → List Lexeme → Bytes → Prop where
  | text {text rest : Bytes} :
      textLength enclosure (text ++ rest) = text.length →
      IsParts enclosure text (bodyText text.length) rest
  | interpolated {text sigiled body rest : Bytes} {parts : List Lexeme} :
      textLength enclosure (text ++ (sigiled ++ (body ++ rest))) = text.length →
      IsVariable sigiled → ¬ (body ++ rest).startsWhere Byte.isNamePart →
      IsParts enclosure body parts rest →
      IsParts enclosure (text ++ (sigiled ++ body))
        (bodyText text.length ++ ⟨.variable, sigiled.length⟩ :: parts) rest

/-- The lexemes of a body, and whether the terminator is the last of them. -/
inductive IsBody (enclosure : Enclosure) : Bytes → List Lexeme → Bool → Prop where
  | cutOff {body : Bytes} {parts : List Lexeme} :
      IsParts enclosure body parts [] → IsBody enclosure body parts false
  | closed {body rest : Bytes} {parts : List Lexeme} {closer : Lexeme} :
      IsParts enclosure body parts rest → terminator? enclosure rest = some closer →
      IsBody enclosure (body ++ rest) (parts ++ [closer]) true

/-- A run of text splits off. -/
theorem exists_text (enclosure : Enclosure) (bytes : Bytes) :
    ∃ text rest, bytes = text ++ rest ∧ textLength enclosure bytes = text.length :=
  Bytes.exists_split (textLength_le enclosure bytes)

/-- A body goes on behind a run of text and a variable. -/
theorem IsBody.interpolated {enclosure : Enclosure} {text sigiled rest : Bytes}
    {lexemes : List Lexeme} {closed : Bool}
    (length : textLength enclosure (text ++ (sigiled ++ rest)) = text.length)
    (isVariable : IsVariable sigiled) (stops : ¬ rest.startsWhere Byte.isNamePart)
    (later : IsBody enclosure rest lexemes closed) :
    IsBody enclosure (text ++ (sigiled ++ rest))
      (bodyText text.length ++ ⟨.variable, sigiled.length⟩ :: lexemes) closed := by
  cases later with
  | @cutOff body parts shape =>
      refine .cutOff (.interpolated ?_ isVariable ?_ shape)
      · rwa [List.append_nil]
      · rwa [List.append_nil]
  | @closed body rest parts closer shape found =>
      have whole := IsParts.interpolated length isVariable stops shape
      simpa only [List.append_assoc, List.cons_append] using IsBody.closed whole found

theorem body_isBody (enclosure : Enclosure) (bytes : Bytes) :
    IsBody enclosure bytes (body enclosure bytes).1 (body enclosure bytes).2 := by
  fun_induction body enclosure bytes with
  | case1 bytes size ended =>
      have whole : textLength enclosure bytes = bytes.length :=
        Nat.le_antisymm (textLength_le enclosure bytes) (List.drop_eq_nil_iff.mp ended)
      change IsBody enclosure bytes (bodyText (textLength enclosure bytes)) false
      rw [whole]
      exact .cutOff (.text (by rwa [List.append_nil]))
  | case2 bytes size byte rest left closer found =>
      obtain ⟨text, stopped, rfl, length⟩ := exists_text enclosure bytes
      change (text ++ stopped).drop (textLength enclosure (text ++ stopped)) = _ at left
      rw [length, List.drop_left] at left
      subst left
      change IsBody enclosure _ (bodyText (textLength enclosure (text ++ byte :: rest)) ++ _) _
      rw [length]
      exact .closed (.text length) found
  | case3 bytes size byte rest left notClosed width lexemes closed later ih =>
      obtain ⟨text, stopped, rfl, length⟩ := exists_text enclosure bytes
      have stops := stops_textLength left (by simp)
      change (text ++ stopped).drop (textLength enclosure (text ++ stopped)) = _ at left
      rw [length, List.drop_left] at left
      subst left
      have starts : startsVariable (byte :: rest) := by
        simpa [notClosed] using stops
      obtain ⟨sigiled, after, split, isVariable, ends, sigiledLength⟩ := exists_variable starts
      have dropped : rest.drop (width - 1) = after := by
        change rest.drop (variableLength (byte :: rest) - 1) = after
        obtain ⟨name, rfl, -⟩ := isVariable
        have tail : rest = name ++ after := (List.cons.inj split).2
        rw [sigiledLength, tail]
        simp
      change IsBody enclosure _ (bodyText (textLength enclosure (text ++ byte :: rest)) ++
        ⟨.variable, variableLength (byte :: rest)⟩ :: lexemes) closed
      rw [later, dropped] at ih
      rw [length, sigiledLength, split]
      rw [split] at length
      exact .interpolated length isVariable ends ih

@[simp] theorem totalSize_bodyText (size : Nat) : totalSize (bodyText size) = size := by
  rw [bodyText]
  split
  · next zero => simp [zero]
  · simp

theorem bodyText_positive {size : Nat} : ∀ lexeme ∈ bodyText size, 0 < lexeme.size := by
  rw [bodyText]
  split
  · simp
  · next nonzero => simpa using Nat.pos_of_ne_zero nonzero

theorem bodyText_kind {size : Nat} : ∀ lexeme ∈ bodyText size, lexeme.kind = .bodyText := by
  rw [bodyText]
  split <;> simp

/-- A run of text is placed as one token, if it is not empty. -/
theorem place_bodyText (file : FileId) (behind text rest : Bytes) :
    place file behind (text ++ rest) (bodyText text.length) =
      if text = [] then [] else [.after file behind .bodyText text] := by
  cases text with
  | nil => rfl
  | cons byte text => simp [bodyText, place]

/-- A run of text that the bytes end with is placed alike. -/
theorem place_text (file : FileId) (behind text : Bytes) :
    place file behind text (bodyText text.length) =
      if text = [] then [] else [.after file behind .bodyText text] := by
  simpa using place_bodyText file behind text []

/-- A run of text, a variable and further parts are placed one behind the other. -/
theorem place_interpolated (file : FileId) (behind text sigiled body : Bytes)
    (parts : List Lexeme) :
    place file behind (text ++ (sigiled ++ body))
        (bodyText text.length ++ ⟨.variable, sigiled.length⟩ :: parts) =
      place file behind (text ++ (sigiled ++ body)) (bodyText text.length) ++
        .after file (text.reverse ++ behind) .variable sigiled ::
          place file (sigiled.reverse ++ (text.reverse ++ behind)) body parts := by
  rw [place_append, totalSize_bodyText, List.drop_left, Bytes.readOn_append_length, place]
  simp

namespace IsParts

variable {enclosure : Enclosure} {body rest : Bytes} {parts : List Lexeme}

/-- The parts take the body and nothing else. -/
theorem totalSize_eq (shape : IsParts enclosure body parts rest) :
    totalSize parts = body.length := by
  induction shape with
  | text => simp
  | interpolated _ _ _ _ ih => simp [ih]

theorem positive (shape : IsParts enclosure body parts rest) :
    ∀ lexeme ∈ parts, 0 < lexeme.size := by
  induction shape with
  | text => exact bodyText_positive
  | interpolated _ isVariable _ _ ih =>
      obtain ⟨name, rfl, -⟩ := isVariable
      intro lexeme member
      rcases List.mem_append.mp member with inText | inRest
      · exact bodyText_positive lexeme inText
      · rcases List.mem_cons.mp inRest with rfl | inRest
        · exact Nat.succ_pos _
        · exact ih lexeme inRest

theorem kind (shape : IsParts enclosure body parts rest) :
    ∀ lexeme ∈ parts, lexeme.kind = .bodyText ∨ lexeme.kind = .variable := by
  induction shape with
  | text => exact fun lexeme member => .inl (bodyText_kind lexeme member)
  | interpolated _ _ _ _ ih =>
      intro lexeme member
      rcases List.mem_append.mp member with inText | inRest
      · exact .inl (bodyText_kind lexeme inText)
      · rcases List.mem_cons.mp inRest with rfl | inRest
        · exact .inr rfl
        · exact ih lexeme inRest

end IsParts

/-- The pieces of a body are there.  One that is closed has read something, and one that
is not has read everything. -/
structure BodyFits (lexemes : List Lexeme) (closed : Bool) (bytes : Bytes) : Prop where
  positive : ∀ lexeme ∈ lexemes, 0 < lexeme.size
  total_le : totalSize lexemes ≤ bytes.length
  progress : closed = true → 0 < totalSize lexemes
  exhausts : closed = false → totalSize lexemes = bytes.length

theorem IsBody.fits {enclosure : Enclosure} {bytes : Bytes} {lexemes : List Lexeme}
    {closed : Bool} (shape : IsBody enclosure bytes lexemes closed) :
    BodyFits lexemes closed bytes := by
  cases shape with
  | cutOff shape =>
      have whole := shape.totalSize_eq
      exact ⟨shape.positive, Nat.le_of_eq whole, by simp, fun _ => whole⟩
  | @closed body rest parts closer shape found =>
      have whole := shape.totalSize_eq
      have fits := terminator?_fits found
      have positive := fits.positive
      have short := fits.size_le
      refine ⟨?_, ?_, ?_, by simp⟩
      · intro lexeme member
        rcases List.mem_append.mp member with inParts | inCloser
        · exact shape.positive lexeme inParts
        · rw [List.mem_singleton.mp inCloser]
          exact positive
      · simp only [totalSize_append, totalSize_cons, totalSize_nil, List.length_append]
        omega
      · intro _
        simp only [totalSize_append, totalSize_cons]
        omega

end PageScript.Lexeme
