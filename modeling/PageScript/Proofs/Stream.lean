import PageScript.Proofs.Calls
import PageScript.Proofs.LiteralItems

/-!
# The stream of a page

A scan that begins outside strings publishes tokens that open nothing, single-quoted
strings, and bodies between an opener and a terminator.  Only the end of the page cuts a
comment, a single-quoted string or a body off, and only then is a warning given.
`Stream` is the grammar of such tokens, over the bytes that they stand for.

A body is opened in one call and read in the next, so the calls do not match the
constructors one by one: `Mode.Streams` says what the tokens of a mode complete.
-/

namespace PageScript

/-- Lexemes of the parts of a body are placed as parts. -/
theorem Lexeme.place_isPart (file : FileId) (behind ahead : Bytes) {lexemes : List Lexeme}
    (kinds : ∀ lexeme ∈ lexemes, lexeme.kind = .bodyText ∨ lexeme.kind = .variable) :
    ∀ token ∈ place file behind ahead lexemes, token.isPart := by
  induction lexemes generalizing behind ahead with
  | nil => simp
  | cons lexeme rest ih =>
      obtain ⟨kind, others⟩ := List.forall_mem_cons.mp kinds
      exact List.forall_mem_cons.mpr ⟨Token.isPart_iff.mpr kind, ih _ _ others⟩

namespace Enclosure

/-- The kind of the tokens that end a body. -/
def closerKind : Enclosure → Kind
  | .heredoc _ => .heredocEnd
  | _ => .char

/-- The first line of a heredoc does not close it. -/
def StaysOpen (enclosure : Enclosure) (bytes : Bytes) : Prop :=
  ∀ label, enclosure = .heredoc label → Heredoc.closingLength? label bytes = none

/-- What an opener is followed by: a body, cut into its parts, then its terminator,
then further bytes. -/
inductive IsContent : Enclosure → Bytes → List Lexeme → Bytes → Bytes → Prop where
  /-- The first line of a heredoc closes it. -/
  | atOnce {label closing rest : Bytes} :
      Heredoc.closingLength? label (closing ++ rest) = some closing.length →
      IsContent (.heredoc label) [] [] closing rest
  | body {enclosure : Enclosure} {body closing rest : Bytes} {parts : List Lexeme} :
      enclosure.StaysOpen (body ++ (closing ++ rest)) →
      Lexeme.IsParts enclosure body parts (closing ++ rest) →
      Lexeme.terminator? enclosure (closing ++ rest) =
        some ⟨enclosure.closerKind, closing.length⟩ →
      IsContent enclosure body parts closing rest

variable {enclosure : Enclosure} {body closing rest : Bytes} {parts : List Lexeme}

theorem IsContent.totalSize_eq (content : enclosure.IsContent body parts closing rest) :
    Lexeme.totalSize parts = body.length := by
  cases content with
  | atOnce => rfl
  | body _ shape => exact shape.totalSize_eq

theorem IsContent.isPart (content : enclosure.IsContent body parts closing rest) (file : FileId)
    (behind : Bytes) : ∀ token ∈ Lexeme.place file behind body parts, token.isPart := by
  cases content with
  | atOnce => simp
  | body _ shape => exact Lexeme.place_isPart file behind body shape.kind

theorem terminator?_kind {bytes : Bytes} {closer : Lexeme}
    (found : Lexeme.terminator? enclosure bytes = some closer) :
    closer.kind = enclosure.closerKind := by
  unfold Lexeme.terminator? at found
  cases enclosure with
  | doubleQuote =>
      cases (Option.ite_none_right_eq_some.mp found).2
      rfl
  | backtick =>
      cases (Option.ite_none_right_eq_some.mp found).2
      rfl
  | heredoc label =>
      obtain ⟨size, -, rfl⟩ := Option.map_eq_some_iff.mp found
      rfl

/-- A quote that is found as a terminator is that quote. -/
theorem eq_singleton_of_startsWhere {quote : UInt8} (one : closing.length = 1)
    (starts : Bytes.startsWhere (· == quote) (closing ++ rest)) : closing = [quote] := by
  obtain ⟨byte, rfl⟩ := List.length_eq_one_iff.mp one
  have same : byte = quote := by simpa using starts
  rw [same]

/-- A terminator that is found ends the body. -/
theorem closes_of_terminator?
    (found : Lexeme.terminator? enclosure (closing ++ rest) =
      some ⟨enclosure.closerKind, closing.length⟩) (file : FileId) (behind : Bytes) :
    enclosure.Closes (.after file behind enclosure.closerKind closing) := by
  unfold Lexeme.terminator? at found
  cases enclosure with
  | doubleQuote =>
      obtain ⟨starts, same⟩ := Option.ite_none_right_eq_some.mp found
      have one : closing.length = 1 := (congrArg Lexeme.size (Option.some.inj same)).symm
      exact ⟨rfl, eq_singleton_of_startsWhere one starts⟩
  | backtick =>
      obtain ⟨starts, same⟩ := Option.ite_none_right_eq_some.mp found
      have one : closing.length = 1 := (congrArg Lexeme.size (Option.some.inj same)).symm
      exact ⟨rfl, eq_singleton_of_startsWhere one starts⟩
  | heredoc label => rfl

theorem IsContent.closes (content : enclosure.IsContent body parts closing rest)
    (file : FileId) (behind : Bytes) :
    enclosure.Closes (.after file behind enclosure.closerKind closing) := by
  cases content with
  | atOnce => rfl
  | body _ _ found => exact closes_of_terminator? found file behind

end Enclosure

namespace Lexeme

variable {enclosure : Enclosure} {body closing rest : Bytes} {parts lexemes : List Lexeme}

/-- A body that is closed splits in front of its terminator and behind it. -/
theorem IsBody.exists_closing {bytes : Bytes} (shape : IsBody enclosure bytes lexemes true) :
    ∃ body closing rest parts, bytes = body ++ (closing ++ rest) ∧
      lexemes = parts ++ [⟨enclosure.closerKind, closing.length⟩] ∧
      IsParts enclosure body parts (closing ++ rest) ∧
      terminator? enclosure (closing ++ rest) =
        some ⟨enclosure.closerKind, closing.length⟩ := by
  cases shape with
  | @closed body rest parts closer shape found =>
      obtain ⟨closing, rest, rfl, size⟩ := Bytes.exists_split (terminator?_fits found).size_le
      have closer_eq : closer = ⟨enclosure.closerKind, closing.length⟩ := by
        rw [← Enclosure.terminator?_kind found, ← size]
      subst closer_eq
      exact ⟨body, closing, rest, parts, rfl, rfl, shape, found⟩

/-- The terminator of a body is placed behind its parts. -/
theorem IsParts.place_closing (shape : IsParts enclosure body parts (closing ++ rest))
    (file : FileId) (behind : Bytes) (kind : Kind) :
    place file behind (body ++ (closing ++ rest)) (parts ++ [⟨kind, closing.length⟩]) =
      place file behind body parts ++ [.after file (body.reverse ++ behind) kind closing] := by
  have total := shape.totalSize_eq
  rw [place_append, place_append_left file _ _ (Nat.le_of_eq total), total, List.drop_left,
    Bytes.readOn_append_length, place, List.take_left]
  rfl

end Lexeme

/-- The tokens of a page from a place outside strings on, and the warnings given about
them.  The place is between the bytes read, nearest first, and the bytes left. -/
inductive Stream (file : FileId) : Bytes → Bytes → List Token → List Warning → Prop where
  | finished {behind : Bytes} : Stream file behind [] [] []
  /-- A token that opens nothing. -/
  | other {behind data rest : Bytes} {kind : Kind} {tokens : List Token}
      {warnings : List Warning} :
      data ≠ [] → kind ≠ .invalid →
      Literal.opening? (.after file behind kind data) = none →
      Stream file (data.reverse ++ behind) rest tokens warnings →
      Stream file behind (data ++ rest) (.after file behind kind data :: tokens) warnings
  | cutOffComment {behind data : Bytes} {kind : Kind} {line column : UInt32} :
      data ≠ [] → kind.isPlain →
      Stream file behind data [.after file behind kind data] [.comment line column]
  | singleQuoted {behind data body rest : Bytes} {tokens : List Token}
      {warnings : List Warning} :
      data = Byte.singleQuote :: body ++ [Byte.singleQuote] →
      Stream file (data.reverse ++ behind) rest tokens warnings →
      Stream file behind (data ++ rest)
        (.after file behind .singleQuoted data :: tokens) warnings
  | cutOffQuote {behind body : Bytes} {line column : UInt32} :
      Stream file behind (Byte.singleQuote :: body)
        [.after file behind .invalid (Byte.singleQuote :: body)] [.singleQuoted line column]
  | literal {behind opening body closing rest : Bytes} {kind : Kind} {enclosure : Enclosure}
      {parts : List Lexeme} {tokens : List Token} {warnings : List Warning} :
      enclosure.Opens (.after file behind kind opening) →
      enclosure.IsContent body parts closing rest →
      Stream file (closing.reverse ++ (body.reverse ++ (opening.reverse ++ behind))) rest
        tokens warnings →
      Stream file behind (opening ++ (body ++ (closing ++ rest)))
        (.after file behind kind opening ::
          (Lexeme.place file (opening.reverse ++ behind) body parts ++
            .after file (body.reverse ++ (opening.reverse ++ behind)) enclosure.closerKind
              closing :: tokens))
        warnings
  | cutOffLiteral {behind opening body : Bytes} {kind : Kind} {enclosure : Enclosure}
      {parts : List Lexeme} :
      enclosure.Opens (.after file behind kind opening) → enclosure.StaysOpen body →
      Lexeme.IsParts enclosure body parts [] →
      Stream file behind (opening ++ body)
        (.after file behind kind opening ::
          Lexeme.place file (opening.reverse ++ behind) body parts)
        [.body enclosure]

theorem Enclosure.Opens.data_ne_nil {enclosure : Enclosure} {token : Token}
    (opens : enclosure.Opens token) : token.data ≠ [] := by
  cases enclosure with
  | doubleQuote => simp [opens.2]
  | backtick => simp [opens.2]
  | heredoc label => exact List.ne_nil_of_length_pos opens.2.length_pos

namespace Literal

/-- The bytes of a page between two tokens. -/
def between (bytes : Bytes) (opener terminator : Token) : Bytes :=
  (bytes.take terminator.span.start).drop opener.span.stop

/-- Between an opener and a terminator stands the body. -/
theorem between_after (file : FileId) (behind opening body closing rest : Bytes)
    (kind closerKind : Kind) :
    between (behind.reverse ++ (opening ++ (body ++ (closing ++ rest))))
      (.after file behind kind opening)
      (.after file (body.reverse ++ (opening.reverse ++ behind)) closerKind closing) = body := by
  have stop : behind.length + opening.length = (behind.reverse ++ opening).length := by simp
  have start : (body.reverse ++ (opening.reverse ++ behind)).length =
      (behind.reverse ++ opening ++ body).length := by
    simp only [List.length_append, List.length_reverse]
    omega
  have page : behind.reverse ++ (opening ++ (body ++ (closing ++ rest))) =
      behind.reverse ++ opening ++ body ++ (closing ++ rest) := by
    simp only [List.append_assoc]
  simp only [between, Token.after, Span.after]
  rw [stop, start, page, List.take_left, List.drop_left]

theorem opening?_of_isPlain {token : Token} (plain : token.kind.isPlain) :
    opening? token = none := by
  rw [opening?]
  cases kind : token.kind <;> simp_all [Kind.isPlain]

/-- A single character other than the two quotes opens nothing. -/
theorem opening?_char {span : Span} {byte : UInt8} (notDouble : byte ≠ Byte.doubleQuote)
    (notBacktick : byte ≠ Byte.backtick) : opening? ⟨.char, span, [byte]⟩ = none := by
  have first : ¬ (Token.mk .char span [byte]).isChar doubleQuote := fun isChar =>
    notDouble (Token.data_of_isChar isChar (by decide))
  have second : ¬ (Token.mk .char span [byte]).isChar backtick := fun isChar =>
    notBacktick (Token.data_of_isChar isChar (by decide))
  simp [opening?, first, second]

end Literal

/-- An open tag opens no literal. -/
theorem Lexeme.openTag?_kind {bytes : Bytes} {tag : Lexeme} (found : openTag? bytes = some tag) :
    tag.kind = .echoTag ∨ tag.kind = .openTag := by
  cases openTag?_isOpenTag found with
  | echo => exact .inl rfl
  | _ => exact .inr rfl

namespace Stream

variable {file : FileId} {behind : Bytes} {tokens : List Token} {warnings : List Warning}

/-- Nothing is said about no bytes. -/
theorem eq_nil_of_nil (stream : Stream file behind [] tokens warnings) :
    tokens = [] ∧ warnings = [] := by
  generalize none : ([] : Bytes) = ahead at stream
  cases stream with
  | finished => exact ⟨rfl, rfl⟩
  | other nonempty => exact absurd (List.append_eq_nil_iff.mp none.symm).1 nonempty
  | cutOffComment nonempty => exact absurd none.symm nonempty
  | singleQuoted quoted => simp [quoted] at none
  | cutOffQuote => contradiction
  | literal opens =>
      exact absurd (List.append_eq_nil_iff.mp none.symm).1 opens.data_ne_nil
  | cutOffLiteral opens =>
      exact absurd (List.append_eq_nil_iff.mp none.symm).1 opens.data_ne_nil

/-- A lexeme that opens nothing is passed over. -/
theorem pass {ahead : Bytes} {kind : Kind} {size : Nat} (fits : Lexeme.Fits ⟨kind, size⟩ ahead)
    (valid : kind ≠ .invalid)
    (opensNothing : Literal.opening? (.after file behind kind (ahead.take size)) = none)
    (later : Stream file (behind.readOn ahead size) (ahead.drop size) tokens warnings) :
    Stream file behind ahead (.after file behind kind (ahead.take size) :: tokens) warnings := by
  have positive : 0 < size := fits.positive
  have short : size ≤ ahead.length := fits.size_le
  have nonempty : ahead.take size ≠ [] :=
    List.ne_nil_of_length_pos (by rw [List.length_take_of_le short]; exact positive)
  have whole := Stream.other nonempty valid opensNothing later
  rwa [List.take_append_drop] at whole

/-- A run of text outside scripts, if it is not empty, is passed over. -/
theorem html {text rest : Bytes}
    (later : Stream file (text.reverse ++ behind) rest tokens warnings) :
    Stream file behind (text ++ rest)
      (Lexeme.place file behind (text ++ rest) (Lexeme.html text.length) ++ tokens) warnings := by
  cases text with
  | nil => simpa [Lexeme.html] using later
  | cons byte text =>
      have whole : Stream file behind (byte :: text ++ rest)
          (.after file behind .inlineHtml (byte :: text) :: tokens) warnings :=
        .other (List.cons_ne_nil byte text) (by simp) rfl later
      simpa [Lexeme.html, Lexeme.place] using whole

end Stream

/-- The warnings about what the end of the page cuts off. -/
def Cut.warnings (cut : Cut) (line column : UInt32) : List Warning :=
  (cut.unterminated.map fun construct => construct.warning line column).toList

namespace Mode

/-- What the tokens of a mode and of those after it complete, between the bytes read,
nearest first, and the bytes left.  Those of a body complete the literal whose opener
has been read.  Where the scan stops there are none. -/
def Streams (file : FileId) (behind ahead : Bytes) (tokens : List Token)
    (warnings : List Warning) : Option Mode → Prop
  | none => tokens = [] ∧ warnings = []
  | some (.body enclosure) =>
      ∀ before opening kind, behind = opening.reverse ++ before →
        enclosure.Opens (.after file before kind opening) → enclosure.StaysOpen ahead →
        Stream file before (opening ++ ahead) (.after file before kind opening :: tokens) warnings
  | some _ => Stream file behind ahead tokens warnings

variable {file : FileId} {behind ahead : Bytes} {cut : Cut} {tokens : List Token}
  {warnings : List Warning} {line column : UInt32}

/-- The mode of the bytes after the lexemes has what the lexemes leave. -/
abbrev Later (file : FileId) (behind ahead : Bytes) (cut : Cut) (tokens : List Token)
    (warnings : List Warning) : Prop :=
  Streams file (behind.readOn ahead (Lexeme.totalSize cut.lexemes))
    (ahead.drop (Lexeme.totalSize cut.lexemes)) tokens warnings cut.next

theorem IsTextCut.stream (shape : IsTextCut ahead cut)
    (later : Later file behind ahead cut tokens warnings) :
    Stream file behind ahead (Lexeme.place file behind ahead cut.lexemes ++ tokens)
      (cut.warnings line column ++ warnings) := by
  cases shape with
  | @tagged text rest tag length found =>
      have kind := Lexeme.openTag?_kind found
      simp only [Later, Lexeme.totalSize_append, Lexeme.totalSize_html, Lexeme.totalSize_cons,
        Lexeme.totalSize_nil, Nat.add_zero, Bytes.readOn_add, ← List.drop_drop,
        List.drop_left, Bytes.readOn_append_length] at later
      rw [Lexeme.place_append, List.append_assoc, Lexeme.totalSize_html, List.drop_left,
        Bytes.readOn_append_length]
      refine Stream.html (Stream.pass (Lexeme.openTag?_fits found) ?_ ?_ later)
      · rcases kind with same | same <;> simp [same]
      · rcases kind with same | same <;> simp [Literal.opening?, Token.after, same]
  | untagged length =>
      obtain ⟨rfl, rfl⟩ := later
      have whole : Stream file behind (ahead ++ [])
          (Lexeme.place file behind (ahead ++ []) (Lexeme.html ahead.length) ++ []) [] :=
        Stream.html .finished
      simpa [Cut.warnings] using whole

theorem IsScriptCut.stream (shape : IsScriptCut ahead cut)
    (later : Later file behind ahead cut tokens warnings) :
    Stream file behind ahead (Lexeme.place file behind ahead cut.lexemes ++ tokens)
      (cut.warnings line column ++ warnings) := by
  cases shape with
  | finished =>
      obtain ⟨rfl, rfl⟩ := later
      exact .finished
  | @plain _ kind size plain fits =>
      simp only [Later, Cut.one, Lexeme.totalSize_cons, Lexeme.totalSize_nil,
        Nat.add_zero] at later
      refine Stream.pass fits ?_ (Literal.opening?_of_isPlain plain) later
      rintro rfl
      contradiction
  | @char byte rest notDouble notBacktick =>
      exact Stream.pass ⟨Nat.one_pos, by simp⟩ (by simp)
        (Literal.opening?_char notDouble notBacktick) later
  | @closeTag _ size fits =>
      simp only [Later, Lexeme.totalSize_cons, Lexeme.totalSize_nil, Nat.add_zero] at later
      exact Stream.pass fits (by simp) rfl later
  | @cutOffComment _ kind plain nonempty =>
      simp only [Later, Cut.one, Lexeme.totalSize_cons, Lexeme.totalSize_nil, Nat.add_zero,
        List.drop_length] at later
      obtain ⟨rfl, rfl⟩ := Stream.eq_nil_of_nil later
      simpa [Cut.one, Cut.warnings, Unterminated.warning, Lexeme.place] using
        Stream.cutOffComment nonempty plain
  | @singleQuoted body rest =>
      have split : Byte.singleQuote :: body ++ Byte.singleQuote :: rest =
          (Byte.singleQuote :: body ++ [Byte.singleQuote]) ++ rest := by simp
      have size : body.length + 2 = (Byte.singleQuote :: body ++ [Byte.singleQuote]).length := by
        simp
      rw [split, size] at later ⊢
      simp only [Later, Cut.one, Lexeme.totalSize_cons, Lexeme.totalSize_nil, Nat.add_zero,
        Bytes.readOn_append_length, List.drop_left] at later
      simp only [Cut.one, Lexeme.place, List.take_left]
      exact .singleQuoted rfl later
  | @cutOffQuote rest =>
      obtain ⟨rfl, rfl⟩ := later
      simpa [Cut.warnings, Unterminated.warning, Lexeme.place] using Stream.cutOffQuote
  | @doubleQuote rest =>
      exact later behind [Byte.doubleQuote] .char rfl ⟨rfl, rfl⟩ (by simp [Enclosure.StaysOpen])
  | @backtick rest =>
      exact later behind [Byte.backtick] .char rfl ⟨rfl, rfl⟩ (by simp [Enclosure.StaysOpen])
  | @closedHeredoc text label rest size written closed =>
      obtain ⟨closing, rest, rfl, rfl⟩ := Bytes.exists_split (Heredoc.closingLength?_le closed).2
      simp only [Later, Lexeme.totalSize_cons, Lexeme.totalSize_nil, Nat.add_zero,
        Bytes.readOn_add, ← List.drop_drop, Bytes.readOn_append_length, List.drop_left] at later
      simp only [Lexeme.place, Bytes.readOn_append_length, List.take_left, List.drop_left]
      have opens : (Enclosure.heredoc label).Opens (.after file behind .heredocStart text) :=
        ⟨rfl, written⟩
      exact .literal opens (.atOnce closed) later
  | @heredoc text label rest written notClosed =>
      simp only [Later, Lexeme.totalSize_cons, Lexeme.totalSize_nil, Nat.add_zero,
        Bytes.readOn_append_length, List.drop_left] at later
      have opened := later behind text .heredocStart rfl ⟨rfl, written⟩ fun other same => by
        cases same
        exact notClosed
      simpa [Cut.warnings, Lexeme.place] using opened

theorem IsBodyCut.streams {enclosure : Enclosure} (shape : IsBodyCut enclosure ahead cut)
    (later : Later file behind ahead cut tokens warnings) :
    Streams file behind ahead (Lexeme.place file behind ahead cut.lexemes ++ tokens)
      (cut.warnings line column ++ warnings) (some (.body enclosure)) := by
  rintro before opening kind rfl opens staysOpen
  cases shape with
  | closed shape =>
      obtain ⟨body, closing, rest, parts, rfl, rfl, shape, found⟩ := shape.exists_closing
      simp only [Later, Lexeme.totalSize_append, Lexeme.totalSize_cons, Lexeme.totalSize_nil,
        Nat.add_zero, shape.totalSize_eq, Bytes.readOn_add, ← List.drop_drop,
        Bytes.readOn_append_length, List.drop_left] at later
      have whole := Stream.literal opens (.body staysOpen shape found) later
      simpa [shape.place_closing, Cut.warnings] using whole
  | cutOff shape =>
      cases shape with
      | cutOff shape =>
          obtain ⟨rfl, rfl⟩ := later
          simpa [Cut.warnings, Unterminated.warning] using
            Stream.cutOffLiteral opens staysOpen shape

/-- What a call takes completes what the modes after it leave. -/
theorem cut_streams (mode : Mode)
    (later : Later file behind ahead (mode.cut ahead) tokens warnings) :
    Streams file behind ahead (Lexeme.place file behind ahead (mode.cut ahead).lexemes ++ tokens)
      ((mode.cut ahead).warnings line column ++ warnings) (some mode) := by
  cases mode with
  | text => exact (cutText_isTextCut ahead).stream later
  | script => exact (cutScript_isScriptCut ahead).stream later
  | body enclosure => exact (cutBody_isBodyCut enclosure ahead).streams later

/-- A mode in which no string is open. -/
def isOutside : Mode → Bool
  | .body _ => false
  | _ => true

end Mode

namespace Call

/-- The tokens of a call are followed by those of the mode that it asks for. -/
theorem streams_append {file : FileId} {call : Call} {tokens : List Token}
    {warnings : List Warning}
    (later : Mode.Later file call.behind call.ahead call.cut tokens warnings) :
    Mode.Streams file call.behind call.ahead (call.tokens file ++ tokens)
      (call.warning?.toList ++ warnings) (some call.mode) :=
  Mode.cut_streams call.mode later

theorem streams (file : FileId) (call : Call) :
    Mode.Streams file call.behind call.ahead (call.tokensOnward file) call.warningsOnward
      (some call.mode) := by
  induction call using Call.onward_induction with
  | stop call stops =>
      have none : Mode.Later file call.behind call.ahead call.cut [] [] := by
        rw [Mode.Later, stops]
        exact ⟨rfl, rfl⟩
      rw [tokensOnward_of_stop file stops, warningsOnward_of_stop stops]
      simpa using streams_append none
  | next call mode goesOn ih =>
      have later : Mode.Later file call.behind call.ahead call.cut
          ((call.onward mode).tokensOnward file) (call.onward mode).warningsOnward := by
        rw [Mode.Later, goesOn]
        exact ih
      rw [tokensOnward_of_next file goesOn, warningsOnward_of_next goesOn]
      exact streams_append later

end Call

/-- The tokens of a page are a stream, if its scan begins outside strings. -/
theorem scan_stream {mode : Mode} (outside : mode.isOutside) (bytes : Bytes) (file : FileId) :
    Stream file [] bytes (scan mode bytes file).tokens (scan mode bytes file).warnings := by
  rw [scan_tokens, scan_warnings]
  have streams := (Call.start mode bytes).streams file
  cases mode with
  | text => exact streams
  | script => exact streams
  | body enclosure => contradiction

end PageScript
