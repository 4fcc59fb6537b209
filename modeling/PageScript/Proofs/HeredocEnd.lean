import PageScript.Proofs.ClosingLine
import PageScript.Proofs.Stream

/-!
# Where a heredoc ends

A heredoc ends at the first line that closes it, and its closer begins at the line break
before that line.  Without such a line it goes on to the end of the page.  The lines are
those of the bytes behind the header, whatever stands in them.
-/

namespace PageScript

namespace Heredoc

open Bytes (EndsLine IsName lines linesLength)

variable {label body closing rest : Bytes} {parts : List Lexeme}

/-- No closer begins at a line feed of a body, or of a body with a carriage return. -/
theorem closerLength?_of_line (carriage : Bytes) {before after : Bytes}
    (shape : Lexeme.IsParts (.heredoc label) body parts (carriage ++ rest))
    (plain : Byte.lineFeed ∉ carriage)
    (split : body ++ carriage = before ++ Byte.lineFeed :: after) :
    closerLength? label (Byte.lineFeed :: (after ++ rest)) = none := by
  have inBody : before.length < body.length := by
    rcases List.append_eq_append_iff.mp split with ⟨more, rfl, same⟩ | ⟨more, rfl, same⟩
    · simp [same] at plain
    · cases more with
      | nil =>
          rw [List.nil_append] at same
          simp [← same] at plain
      | cons byte more => simp
  have none := closerLength?_of_isParts shape before.length inBody
  rwa [← List.append_assoc, split, List.append_assoc, List.drop_left, List.cons_append] at none

/-- A closing line behind a body is the first one. -/
theorem isFirstClosing_of_lineFeed (carriage : Bytes) {after : Bytes} {size : Nat}
    (isName : IsName label)
    (staysOpen : closingLength? label (body ++ (carriage ++ Byte.lineFeed :: after)) = none)
    (shape : Lexeme.IsParts (.heredoc label) body parts (carriage ++ Byte.lineFeed :: after))
    (plain : Byte.lineFeed ∉ carriage) (found : closingLength? label after = some size) :
    IsFirstClosing label (lines (body ++ (carriage ++ Byte.lineFeed :: after)))
      (lines (body ++ carriage)) size := by
  obtain ⟨line, left, later, rfl, ends, cut⟩ := Bytes.exists_first_line after
  have closing := (closingLength?_eq_some_iff isName).mp found
  rw [← List.append_assoc] at staysOpen ⊢
  refine ⟨line, later, ?_, fun other member => ?_, closing.of_append isName ends⟩
  · rw [Bytes.lines_append, cut]
  · refine not_closes_of_mem_lines isName _ (.inr ⟨_, rfl⟩) staysOpen ?_ member
    exact fun before after split => closerLength?_of_line carriage shape plain split

/-- A body does not end in a carriage return that a line feed and a closing line follow. -/
theorem getLast?_ne_of_isParts {after : Bytes} {size : Nat}
    (shape : Lexeme.IsParts (.heredoc label) body parts (Byte.lineFeed :: after))
    (found : closingLength? label after = some size) :
    body.getLast? ≠ some Byte.carriageReturn := by
  intro last
  obtain ⟨init, rfl⟩ := List.getLast?_eq_some_iff.mp last
  have none := closerLength?_of_isParts shape init.length (by simp)
  rw [List.append_assoc, List.drop_left, List.singleton_append, closerLength?_carriageReturn,
    found] at none
  contradiction

/-- The terminator of a heredoc is a line break and the first closing line. -/
theorem isFirstClosing_of_isContent (isName : IsName label)
    (content : (Enclosure.heredoc label).IsContent body parts closing rest) :
    ∃ earlier size, IsFirstClosing label (lines (body ++ (closing ++ rest))) earlier size ∧
      linesLength earlier = body.length + breakLength earlier ∧
      closing.length = breakLength earlier + size := by
  cases content with
  | atOnce found =>
      have here := (closingLength?_eq_some_iff isName).mp found
      obtain ⟨line, after, later, split, ends, cut⟩ := Bytes.exists_first_line (closing ++ rest)
      rw [split] at here
      refine ⟨[], closing.length, ⟨line, later, ?_, by simp, here.of_append isName ends⟩, ?_, ?_⟩
      · simpa using cut
      · simp [linesLength, breakLength]
      · simp [breakLength]
  | body staysOpen shape found =>
      obtain ⟨length, closer, same⟩ := Option.map_eq_some_iff.mp found
      obtain ⟨lineBreak, after, size, split, ends, closes, total⟩ :=
        exists_of_closerLength? closer
      have length_eq : length = closing.length := congrArg Lexeme.size same
      have opened := staysOpen label rfl
      rw [split] at shape opened ⊢
      rcases ends with rfl | rfl
      · -- A line feed alone: the body is the lines before.
        have first := isFirstClosing_of_lineFeed [] isName opened shape (by simp) closes
        have broken := breakLength_lines body
        rw [if_neg (getLast?_ne_of_isParts shape closes)] at broken
        rw [List.append_nil] at first
        refine ⟨lines body, size, first, ?_, ?_⟩
        · rw [broken]
          exact Bytes.linesLength_lines body
        · rw [broken, ← length_eq, total]
          rfl
      · -- A carriage return before it belongs to the last line, not to the body.
        have first := isFirstClosing_of_lineFeed [Byte.carriageReturn] isName opened shape
          (by decide) closes
        have broken := breakLength_lines (body ++ [Byte.carriageReturn])
        rw [if_pos (by simp)] at broken
        refine ⟨lines (body ++ [Byte.carriageReturn]), size, first, ?_, ?_⟩
        · have total := Bytes.linesLength_lines (body ++ [Byte.carriageReturn])
          simpa [broken] using total
        · rw [broken, ← length_eq, total]
          rfl

/-- No line of a body that is cut off closes. -/
theorem not_closes_of_cutOff (isName : IsName label)
    (staysOpen : (Enclosure.heredoc label).StaysOpen body)
    (shape : Lexeme.IsParts (.heredoc label) body parts []) :
    ∀ line ∈ lines body, ¬ Closes label line := by
  intro line member
  refine not_closes_of_mem_lines isName [] (.inl rfl) ?_ ?_ member
  · simpa using staysOpen label rfl
  · intro before after split
    exact closerLength?_of_line [] shape (by simp) (by simpa using split)

/-- A heredoc ends where the lines behind its header say: `after` are the tokens behind
its opener. -/
structure EndsAtClosing (bytes : Bytes) (opener : Token) (after : List Token) (label : Bytes) :
    Prop where
  header : header? opener.data = some ⟨opener.data.length, label⟩
  /-- The closer begins at the line break before the first closing line and ends with the
  label, and there are only parts before it. -/
  closed : ∀ earlier size,
    IsFirstClosing label (lines (bytes.drop opener.span.stop)) earlier size →
    ∃ body closer rest, after = body ++ closer :: rest ∧ (∀ part ∈ body, part.isPart) ∧
      body.flatMap (·.data) = Literal.between bytes opener closer ∧
      closer.kind = .heredocEnd ∧
      closer.span.start + breakLength earlier = opener.span.stop + linesLength earlier ∧
      closer.span.stop = opener.span.stop + linesLength earlier + size
  /-- Without a closing line there are only parts, up to the end of the page. -/
  cutOff : (∀ line ∈ lines (bytes.drop opener.span.stop), ¬ Closes label line) →
    (∀ part ∈ after, part.isPart) ∧ after.flatMap (·.data) = bytes.drop opener.span.stop

section

variable (file : FileId) (behind : Bytes) {opening : Bytes}

theorem drop_stop (opening rest : Bytes) : (behind.reverse ++ (opening ++ rest)).drop
    (Token.after file behind .heredocStart opening).span.stop = rest := by
  have stop : behind.length + opening.length = (behind.reverse ++ opening).length := by simp
  simp only [Token.after, Span.after]
  rw [stop, ← List.append_assoc, List.drop_left]

/-- A line that closes is not among lines that do not. -/
theorem IsFirstClosing.exists_closes {all earlier : List Bytes} {size : Nat}
    (first : IsFirstClosing label all earlier size) : ∃ line ∈ all, Closes label line := by
  obtain ⟨line, later, rfl, -, closing⟩ := first
  exact ⟨line, by simp, size, closing⟩

/-- A heredoc with its terminator ends there. -/
theorem endsAtClosing_of_isContent (written : IsHeader opening label)
    (content : (Enclosure.heredoc label).IsContent body parts closing rest)
    (tokens : List Token) :
    EndsAtClosing (behind.reverse ++ (opening ++ (body ++ (closing ++ rest))))
      (.after file behind .heredocStart opening)
      (Lexeme.place file (opening.reverse ++ behind) body parts ++
        .after file (body.reverse ++ (opening.reverse ++ behind)) .heredocEnd closing :: tokens)
      label := by
  have left := drop_stop file behind opening (body ++ (closing ++ rest))
  obtain ⟨earlier, size, first, bodyLength, closingLength⟩ :=
    isFirstClosing_of_isContent written.isName content
  constructor
  · have found := header?_append written []
    rwa [List.append_nil] at found
  · intro others other again
    rw [left] at again
    obtain ⟨rfl, rfl⟩ := first.unique written.isName again
    refine ⟨_, _, tokens, rfl, content.isPart file _, ?_, rfl, ?_, ?_⟩
    · rw [Literal.between_after, Lexeme.flatMap_data_place, content.totalSize_eq,
        List.take_length]
    · simp only [Token.after, Span.after, List.length_append, List.length_reverse]
      omega
    · simp only [Token.after, Span.after, List.length_append, List.length_reverse]
      omega
  · intro noneCloses
    rw [left] at noneCloses
    obtain ⟨line, member, closes⟩ := first.exists_closes
    exact absurd closes (noneCloses line member)

/-- A heredoc without a terminator goes on to the end of the page. -/
theorem endsAtClosing_of_cutOff (written : IsHeader opening label)
    (staysOpen : (Enclosure.heredoc label).StaysOpen body)
    (shape : Lexeme.IsParts (.heredoc label) body parts []) :
    EndsAtClosing (behind.reverse ++ (opening ++ body))
      (.after file behind .heredocStart opening)
      (Lexeme.place file (opening.reverse ++ behind) body parts) label := by
  have left := drop_stop file behind opening body
  constructor
  · have found := header?_append written []
    rwa [List.append_nil] at found
  · intro earlier size first
    rw [left] at first
    obtain ⟨line, member, closes⟩ := first.exists_closes
    exact absurd closes (not_closes_of_cutOff written.isName staysOpen shape line member)
  · intro _
    refine ⟨Lexeme.place_isPart file _ body shape.kind, ?_⟩
    rw [left, Lexeme.flatMap_data_place, shape.totalSize_eq, List.take_length]

end

/-- No token is the header of a heredoc. -/
def NoHeader (tokens : List Token) : Prop :=
  ∀ token ∈ tokens, token.kind ≠ .heredocStart

theorem noHeader_of_isPart {tokens : List Token} (all : ∀ token ∈ tokens, token.isPart) :
    NoHeader tokens := by
  intro token member
  rcases Token.isPart_iff.mp (all token member) with kind | kind <;> simp [kind]

theorem noHeader_singleton {token : Token} (kind : token.kind ≠ .heredocStart) :
    NoHeader [token] := by
  simpa [NoHeader] using kind

theorem noHeader_append {front back : List Token} (first : NoHeader front)
    (later : NoHeader back) : NoHeader (front ++ back) := by
  intro token member
  rcases List.mem_append.mp member with inFront | inBack
  · exact first token inFront
  · exact later token inBack

theorem closerKind_ne_heredocStart (enclosure : Enclosure) :
    enclosure.closerKind ≠ .heredocStart := by
  cases enclosure <;> simp [Enclosure.closerKind]

section

variable {front tokens before after : List Token} {opener : Token}

/-- A header is not among tokens that are none. -/
theorem NoHeader.absurd (none : NoHeader tokens) (kind : opener.kind = .heredocStart)
    (split : tokens = before ++ opener :: after) : False :=
  none opener (by simp [split]) kind

/-- A header stands behind tokens that are none. -/
theorem NoHeader.exists_behind (none : NoHeader front) (kind : opener.kind = .heredocStart)
    (split : front ++ tokens = before ++ opener :: after) :
    ∃ rest, tokens = rest ++ opener :: after := by
  rcases List.append_eq_append_iff.mp split with ⟨more, -, rest⟩ | ⟨more, rfl, rest⟩
  · exact ⟨more, rest⟩
  · cases more with
    | nil => exact ⟨[], by simpa using rest.symm⟩
    | cons first more =>
        obtain ⟨rfl, -⟩ := List.cons.inj rest
        exact (none opener (by simp) kind).elim

end

/-- An opener whose kind is that of a header opens a heredoc. -/
theorem exists_label_of_opens {enclosure : Enclosure} {token : Token}
    (opens : enclosure.Opens token) (kind : token.kind = .heredocStart) :
    ∃ label, enclosure = .heredoc label ∧ IsHeader token.data label := by
  cases enclosure with
  | doubleQuote => simp [opens.1] at kind
  | backtick => simp [opens.1] at kind
  | heredoc label => exact ⟨label, rfl, opens.2⟩

/-- Every header in a stream is that of a heredoc that ends at its closing line. -/
theorem endsAtClosing_of_stream {file : FileId} {behind ahead : Bytes} {tokens : List Token}
    {warnings : List Warning} (stream : Stream file behind ahead tokens warnings)
    {before after : List Token} {opener : Token} (split : tokens = before ++ opener :: after)
    (kind : opener.kind = .heredocStart) :
    ∃ label, EndsAtClosing (behind.reverse ++ ahead) opener after label := by
  induction stream generalizing before with
  | finished => simp at split
  | @other behind data rest other tokens warnings _ _ opensNothing _ ih =>
      have none : NoHeader [Token.after file behind other data] := by
        apply noHeader_singleton
        intro header
        simp [Literal.opening?, header] at opensNothing
      obtain ⟨rest, later⟩ := none.exists_behind kind split
      simpa using ih later
  | @cutOffComment behind data other line column _ plain =>
      have none : NoHeader [Token.after file behind other data] := by
        apply noHeader_singleton
        intro header
        have same : other = .heredocStart := header
        simp [same, Kind.isPlain] at plain
      exact (none.absurd kind split).elim
  | @singleQuoted behind data body rest tokens warnings quoted _ ih =>
      have none : NoHeader [Token.after file behind .singleQuoted data] :=
        noHeader_singleton (by simp [Token.after])
      obtain ⟨rest, later⟩ := none.exists_behind kind split
      simpa using ih later
  | @cutOffQuote behind body line column =>
      have none : NoHeader [Token.after file behind .invalid (Byte.singleQuote :: body)] :=
        noHeader_singleton (by simp [Token.after])
      exact (none.absurd kind split).elim
  | @literal behind opening body closing rest first enclosure lexemes tokens warnings opens content
      _ ih =>
      have parts := noHeader_of_isPart (content.isPart file (opening.reverse ++ behind))
      cases before with
      | nil =>
          rw [List.nil_append, List.cons.injEq] at split
          obtain ⟨rfl, rfl⟩ := split
          obtain ⟨label, rfl, written⟩ := exists_label_of_opens opens kind
          cases (show first = .heredocStart from kind)
          exact ⟨label, endsAtClosing_of_isContent file behind written content tokens⟩
      | cons head before =>
          rw [List.cons_append, List.cons.injEq, List.append_cons] at split
          have last : NoHeader [Token.after file (body.reverse ++ (opening.reverse ++ behind))
              enclosure.closerKind closing] :=
            noHeader_singleton (closerKind_ne_heredocStart enclosure)
          obtain ⟨rest, later⟩ := (noHeader_append parts last).exists_behind kind split.2
          simpa using ih later
  | @cutOffLiteral behind opening body first enclosure lexemes opens staysOpen shape =>
      have parts := noHeader_of_isPart
        (Lexeme.place_isPart file (opening.reverse ++ behind) body shape.kind)
      cases before with
      | nil =>
          rw [List.nil_append, List.cons.injEq] at split
          obtain ⟨rfl, rfl⟩ := split
          obtain ⟨label, rfl, written⟩ := exists_label_of_opens opens kind
          cases (show first = .heredocStart from kind)
          exact ⟨label, endsAtClosing_of_cutOff file behind written staysOpen shape⟩
      | cons head before =>
          rw [List.cons_append, List.cons.injEq] at split
          exact (parts.absurd kind split.2).elim

/-- Every heredoc of a page ends at its first closing line, or else with the page. -/
theorem scan_endsAtClosing {mode : Mode} (outside : mode.isOutside) (bytes : Bytes)
    (file : FileId) {before after : List Token} {opener : Token}
    (split : (scan mode bytes file).tokens = before ++ opener :: after)
    (kind : opener.kind = .heredocStart) : ∃ label, EndsAtClosing bytes opener after label := by
  simpa using endsAtClosing_of_stream (scan_stream outside bytes file) split kind

/-- A heredoc whose closing line is indented. -/
theorem scan_endsAtClosing_indented :
    let page := Bytes.ascii "<<<A\nb\n A"
    ∃ before opener after, (scan .script page {}).tokens = before ++ opener :: after ∧
      opener.kind = .heredocStart ∧ ∃ label, EndsAtClosing page opener after label := by
  intro page
  have scanned : (scan .script page {}).tokens =
      [] ++ ⟨.heredocStart, ⟨0, 5, 1, 1, {}⟩, Bytes.ascii "<<<A\n"⟩ ::
        [⟨.bodyText, ⟨5, 6, 2, 1, {}⟩, Bytes.ascii "b"⟩,
          ⟨.heredocEnd, ⟨6, 9, 2, 2, {}⟩, Bytes.ascii "\n A"⟩] := by
    decide +kernel
  exact ⟨_, _, _, scanned, rfl, scan_endsAtClosing rfl page {} scanned rfl⟩

end Heredoc

end PageScript
