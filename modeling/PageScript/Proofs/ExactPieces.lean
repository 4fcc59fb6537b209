import PageScript.Proofs.FirstPlaces
import PageScript.Proofs.LexemeSeams
import PageScript.Proofs.NumberGrammar
import PageScript.Proofs.Tiling

/-!
# Exact pieces

A piece cut from the front is as long as its kind allows and no longer: a run goes on no
further, a comment stops at its end, an operator is the longest one that stands there.
`Lexeme.IsExact` says so for each kind, with the bytes behind the piece in view.

Every piece that a mode cuts is exact, and so is every token of a scan with the bytes of
the page behind it.
-/

namespace PageScript

namespace Bytes

/-- A run of bytes of a class, with bytes behind it that do not go on with it. -/
structure IsMaximalRun (accept : UInt8 → Bool) (run after : Bytes) : Prop where
  nonempty : run ≠ []
  members : ∀ byte ∈ run, accept byte
  stops : ¬ after.startsWhere accept

/-- A name with bytes behind it that do not go on with it. -/
structure IsMaximalName (name after : Bytes) : Prop where
  isName : name.IsName
  stops : ¬ after.startsWhere Byte.isNamePart

theorem exists_maximalRun {accept : UInt8 → Bool} {bytes : Bytes}
    (starts : bytes.startsWhere accept) :
    ∃ run after, bytes = run ++ after ∧ IsMaximalRun accept run after ∧
      runLength accept bytes = run.length := by
  have positive := runLength_pos starts
  obtain ⟨run, after, split, members, stops, length⟩ := exists_run accept bytes
  rw [length] at positive
  exact ⟨run, after, split, ⟨List.length_pos_iff.mp positive, members, stops⟩, length⟩

theorem exists_maximalName {bytes : Bytes} (starts : bytes.startsWhere Byte.isNameStart) :
    ∃ name after, bytes = name ++ after ∧ IsMaximalName name after ∧
      nameLength bytes = name.length := by
  obtain ⟨name, after, split, isName, stops, length⟩ :=
    exists_name (Nat.ne_of_gt (nameLength_pos starts))
  exact ⟨name, after, split, ⟨isName, stops⟩, length⟩

/-- In a table that lists longer entries first, the first that fits is the longest. -/
theorem isLongestFront_of_find? {table : List Bytes} {text bytes : Bytes}
    (sorted : table.Pairwise fun left right => right.length ≤ left.length)
    (found : table.find? (·.isPrefixOf bytes) = some text) :
    IsLongestFront (· ∈ table) text bytes := by
  obtain ⟨stands, earlier, later, rfl, missing⟩ := List.find?_eq_some_iff_append.mp found
  refine ⟨List.isPrefixOf_iff_prefix.mp stands, by simp, fun other standsToo member => ?_⟩
  rcases List.mem_append.mp member with inEarlier | inLater
  · have missed := missing other inEarlier
    simp [List.isPrefixOf_iff_prefix.mpr standsToo] at missed
  · rcases List.mem_cons.mp inLater with rfl | inLater
    · exact Nat.le_refl _
    · exact List.rel_of_pairwise_cons (List.pairwise_append.mp sorted).2.1 inLater

end Bytes

namespace Lexeme

open Bytes (IsFirstPlace IsLongestFront IsMaximalName IsMaximalRun)

/-- A comment that ends with its line begins with one of two openers. -/
def OpensLineComment (text : Bytes) : Prop :=
  Bytes.ascii "#" <+: text ∨ Bytes.ascii "//" <+: text

/-- A comment that ends with its line, with the bytes behind it. -/
structure IsLineComment (text after : Bytes) : Prop where
  opens : OpensLineComment text
  ends : IsFirstPlace EndsLineComment (text ++ after) text.length

/-- How a block comment ends, with the bytes behind it.  If it is cut off the end of the page
is the end of the comment, and that is what the cut warns about. -/
inductive EndsBlockComment (unterminated : Option Unterminated) (text after : Bytes) :
    Prop where
  | closed {place : Nat} :
      ClosesBlockAt (text ++ after) place → text.length = place + 2 →
      EndsBlockComment unterminated text after
  | cutOff :
      NeverCloses text → after = [] → unterminated = some .comment →
      EndsBlockComment unterminated text after

/-- A comment with its own opener and closer, with the bytes behind it. -/
structure IsBlockComment (unterminated : Option Unterminated) (text after : Bytes) : Prop where
  opens : Bytes.ascii "/*" <+: text
  ends : EndsBlockComment unterminated text after

/-- What is known about a piece of a kind and the bytes behind it, in a cut that warns about
an unterminated construct or does not. -/
def IsExact (unterminated : Option Unterminated) (data after : Bytes) : Kind → Prop
  | .inlineHtml => IsFirstPlace BeginsTag (data ++ after) data.length
  | .whitespace => IsMaximalRun Byte.isSpace data after
  | .comment =>
      IsLineComment data after ∨ IsBlockComment unterminated data after ∧ ¬ StartsDoc data
  | .docComment => IsBlockComment unterminated data after ∧ StartsDoc data
  | .variable => ∃ name, data = Byte.dollar :: name ∧ IsMaximalName name after
  | .name => IsMaximalName data after ∧ data.map Byte.toLower ∉ Keyword.reserved
  | .keyword word => IsMaximalName data after ∧ data.map Byte.toLower = word.spelling
  | .operator => IsLongestFront (· ∈ operators) data (data ++ after)
  | .char =>
      ∃ byte, data = [byte] ∧ byte < 0x80 ∧ ∀ text ∈ operators, ¬ text <+: byte :: after
  | .openTag | .echoTag | .closeTag | .integer | .decimal | .singleQuoted | .bodyText
  | .heredocStart | .heredocEnd | .invalid => True

/-- Every piece has a property of its bytes, the bytes behind it and its kind. -/
inductive Each (property : Bytes → Bytes → Kind → Prop) : Bytes → List Lexeme → Prop where
  | nil {bytes : Bytes} : Each property bytes []
  | cons {bytes : Bytes} {lexeme : Lexeme} {rest : List Lexeme} :
      property (bytes.take lexeme.size) (bytes.drop lexeme.size) lexeme.kind →
      Each property (bytes.drop lexeme.size) rest → Each property bytes (lexeme :: rest)

namespace Each

variable {property : Bytes → Bytes → Kind → Prop} {bytes : Bytes} {front back : List Lexeme}

/-- One piece that splits off the front. -/
theorem single {data after : Bytes} {kind : Kind} (holds : property data after kind) :
    Each property (data ++ after) [⟨kind, data.length⟩] := by
  refine .cons ?_ .nil
  rwa [List.take_left, List.drop_left]

theorem append (first : Each property bytes front)
    (second : Each property (bytes.drop (totalSize front)) back) :
    Each property bytes (front ++ back) := by
  induction first with
  | nil => exact second
  | cons holds _ ih =>
      rw [totalSize_cons, ← List.drop_drop] at second
      exact .cons holds (ih second)

/-- The tokens of the pieces have the property where they stand in the page. -/
theorem exists_around (each : Each property bytes front) (file : FileId) (behind : Bytes) :
    ∀ token ∈ place file behind bytes front, ∃ before after,
      behind.reverse ++ bytes = before ++ (token.data ++ after) ∧
        token.span.start = before.length ∧ property token.data after token.kind := by
  induction each generalizing behind with
  | nil => simp
  | @cons bytes lexeme rest holds _ ih =>
      intro token member
      rcases List.mem_cons.mp member with rfl | later
      · refine ⟨behind.reverse, bytes.drop lexeme.size, ?_, ?_, holds⟩
        · simp [Token.after]
        · simp [Token.after, Span.after]
      · rw [← Bytes.reverse_readOn_append_drop behind bytes lexeme.size]
        exact ih (behind.readOn bytes lexeme.size) token later

end Each

/-! ### One construct after the other -/

variable {unterminated : Option Unterminated} {enclosure : Enclosure} {bytes text body rest : Bytes}
  {parts : List Lexeme}

/-- A run of text outside scripts, if it is not empty, stops at the first tag. -/
theorem html_isExact (first : IsFirstPlace BeginsTag (text ++ rest) text.length) :
    Each (IsExact unterminated) (text ++ rest) (html text.length) := by
  rw [html]
  split
  · exact .nil
  · exact .single first

theorem lineComment_isExact {first : UInt8}
    (opens : first = Byte.hash ∨ first = Byte.slash ∧ rest.startsWhere (· == Byte.slash)) :
    Each (IsExact unterminated) (first :: rest)
      [⟨.comment, lineCommentLength (first :: rest)⟩] := by
  have ends := lineCommentLength_isFirstPlace (first :: rest)
  obtain ⟨text, after, split, length⟩ := Bytes.exists_split ends.size_le
  have front : text <+: first :: rest := split ▸ List.prefix_append text after
  rw [length, split] at ends ⊢
  refine .single (.inl ⟨?_, ends⟩)
  rcases opens with rfl | ⟨rfl, second⟩
  · left
    apply List.prefix_of_prefix_length_le ⟨rest, rfl⟩ front
    rw [← length]
    exact lineCommentLength_pos (by decide) (by decide)
  · right
    obtain ⟨slash, rest, rfl, same⟩ := Bytes.exists_cons_of_startsWhere second
    obtain rfl := beq_iff_eq.mp same
    apply List.prefix_of_prefix_length_le ⟨rest, rfl⟩ front
    have two : lineCommentLength (Byte.slash :: Byte.slash :: rest) =
        lineCommentLength rest + 2 := rfl
    rw [← length, two]
    exact Nat.le_add_left _ _

/-- The second star and the whitespace of a documenting comment belong to it. -/
theorem blockCommentKind_isExact (comment : IsBlockComment unterminated text rest) :
    IsExact unterminated text rest (blockCommentKind text) := by
  have doc := blockCommentKind_eq_docComment_iff comment.opens
  rcases blockCommentKind_eq text with plain | documents
  · rw [plain] at doc ⊢
    exact .inr ⟨comment, fun starts => by simp [starts] at doc⟩
  · rw [documents]
    exact ⟨comment, doc.mp documents⟩

theorem blockComment_isExact (opens : bytes = Byte.slash :: Byte.star :: rest) :
    Each (IsExact (Mode.cutBlockComment bytes).unterminated) bytes
      (Mode.cutBlockComment bytes).lexemes := by
  have begins : Bytes.ascii "/*" <+: bytes := ⟨rest, opens.symm⟩
  rw [Mode.cutBlockComment]
  split
  · next size found =>
      have fits := blockCommentLength?_le found
      obtain ⟨place, closes, size_eq⟩ := closesBlockAt_of_blockCommentLength? found
      obtain ⟨text, after, rfl, rfl⟩ := Bytes.exists_split fits.2
      have within : Bytes.ascii "/*" <+: text := by
        apply List.prefix_of_prefix_length_le begins (List.prefix_append text after)
        exact Nat.le_trans (by decide) fits.1
      rw [blockCommentKind_append fits.1]
      exact .single (blockCommentKind_isExact ⟨within, .closed closes size_eq⟩)
  · next missing =>
      have cutOff := neverCloses_of_blockCommentLength? missing
      have exact := blockCommentKind_isExact ⟨begins, .cutOff cutOff rfl rfl⟩
      simpa [Cut.one] using Each.single exact

theorem variable_isExact (starts : startsVariable bytes) :
    Each (IsExact unterminated) bytes [⟨.variable, variableLength bytes⟩] := by
  obtain ⟨sigiled, after, rfl, ⟨name, rfl, isName⟩, stops, length⟩ := exists_variable starts
  rw [length]
  exact .single ⟨name, rfl, isName, stops⟩

theorem name_isExact (starts : bytes.startsWhere Byte.isNameStart) :
    Each (IsExact unterminated) bytes
      [⟨Kind.ofName (bytes.take (Bytes.nameLength bytes)), Bytes.nameLength bytes⟩] := by
  obtain ⟨name, after, rfl, maximal, length⟩ := Bytes.exists_maximalName starts
  rw [length, List.take_left]
  apply Each.single
  rw [Kind.ofName]
  split
  · next word found => exact ⟨maximal, Keyword.ofName?_eq_some_iff.mp found⟩
  · next missing =>
      refine ⟨maximal, fun reserved => ?_⟩
      simp [Keyword.ofName?, reserved] at missing

/-- The table lists longer operators before shorter ones. -/
theorem operators_sorted : operators.Pairwise fun left right => right.length ≤ left.length := by
  decide

/-- No operator stands where every operator begins with another byte. -/
theorem no_operator_of_startsWhere {first : UInt8}
    (others : ∀ text ∈ operators, text.startsWhere (· != first)) (rest : Bytes) :
    ∀ text ∈ operators, ¬ text <+: first :: rest := by
  intro text member stands
  obtain ⟨head, tail, rfl, other⟩ := Bytes.exists_cons_of_startsWhere (others text member)
  exact bne_iff_ne.mp other (List.cons_prefix_cons.mp stands).1

theorem operator_isExact {first : UInt8} (small : first < 0x80) (rest : Bytes) :
    Each (IsExact unterminated) (first :: rest) [operator (first :: rest)] := by
  rw [operator]
  split
  · next text found =>
      have longest := Bytes.isLongestFront_of_find? operators_sorted found
      obtain ⟨after, split⟩ := longest.isPrefix
      rw [← split] at longest ⊢
      exact .single longest
  · next missing =>
      have char : IsExact unterminated [first] rest .char := by
        refine ⟨first, rfl, small, ?_⟩
        simpa [List.isPrefixOf_iff_prefix] using missing
      exact .single char

theorem number_isExact (bytes : Bytes) : Each (IsExact unterminated) bytes [number bytes] := by
  refine .cons ?_ .nil
  rcases number_kind bytes with kind | kind <;> rw [kind] <;> trivial

/-- A quote is a character at which no operator stands. -/
theorem quote_isExact {quote : UInt8} (isQuote : quote = Byte.doubleQuote ∨ quote = Byte.backtick)
    (rest : Bytes) : Each (IsExact unterminated) (quote :: rest) [⟨.char, 1⟩] := by
  have char : IsExact unterminated [quote] rest .char := by
    rcases isQuote with rfl | rfl
    · exact ⟨_, rfl, by decide, no_operator_of_startsWhere (by decide) rest⟩
    · exact ⟨_, rfl, by decide, no_operator_of_startsWhere (by decide) rest⟩
  exact .single char

theorem terminator_isExact {closer : Lexeme} (found : terminator? enclosure rest = some closer) :
    Each (IsExact unterminated) rest [closer] := by
  have quoted {quote : UInt8} (isQuote : quote = Byte.doubleQuote ∨ quote = Byte.backtick)
      (found : (if rest.startsWhere (· == quote) then some ⟨.char, 1⟩ else none) = some closer) :
      Each (IsExact unterminated) rest [closer] := by
    obtain ⟨starts, isCloser⟩ := Option.ite_none_right_eq_some.mp found
    cases isCloser
    obtain ⟨byte, after, rfl, same⟩ := Bytes.exists_cons_of_startsWhere starts
    rw [beq_iff_eq.mp same]
    exact quote_isExact isQuote after
  cases enclosure with
  | doubleQuote => exact quoted (.inl rfl) found
  | backtick => exact quoted (.inr rfl) found
  | heredoc label =>
      obtain ⟨size, -, rfl⟩ := Option.map_eq_some_iff.mp found
      exact .cons trivial .nil

theorem bodyText_isExact (size : Nat) (bytes : Bytes) :
    Each (IsExact unterminated) bytes (bodyText size) := by
  rw [bodyText]
  split
  · exact .nil
  · exact .cons trivial .nil

theorem IsParts.isExact (shape : IsParts enclosure body parts rest) :
    Each (IsExact unterminated) (body ++ rest) parts := by
  induction shape with
  | text => exact bodyText_isExact _ _
  | @interpolated text sigiled body rest parts _ isVariable stops _ ih =>
      obtain ⟨name, rfl, isName⟩ := isVariable
      apply (bodyText_isExact _ _).append
      rw [totalSize_bodyText, List.append_assoc, List.drop_left, List.append_assoc]
      refine .cons ?_ ?_
      · rw [List.take_left, List.drop_left]
        exact ⟨name, rfl, isName, stops⟩
      · rwa [List.drop_left]

theorem IsBody.isExact {lexemes : List Lexeme} {closed : Bool}
    (shape : IsBody enclosure bytes lexemes closed) :
    Each (IsExact unterminated) bytes lexemes := by
  cases shape with
  | cutOff shape => simpa using shape.isExact
  | closed shape found =>
      apply shape.isExact.append
      rw [shape.totalSize_eq, List.drop_left]
      exact terminator_isExact found

end Lexeme

namespace Mode

open Lexeme (Each IsExact)

variable {bytes : Bytes} {cut : Cut}

theorem IsTextCut.isExact (shape : IsTextCut bytes cut) :
    Each (IsExact cut.unterminated) bytes cut.lexemes := by
  cases shape with
  | tagged first found =>
      apply (Lexeme.html_isExact first).append
      cases Lexeme.openTag?_isOpenTag found <;> exact .cons trivial .nil
  | untagged none =>
      have first : Bytes.IsFirstPlace Lexeme.BeginsTag (bytes ++ []) bytes.length := by
        rw [List.append_nil]
        exact .of_nowhere none
      have each : Each (IsExact Option.none) (bytes ++ []) (Lexeme.html bytes.length) :=
        Lexeme.html_isExact first
      rwa [List.append_nil] at each

theorem IsConstruct.isExact (construct : IsConstruct bytes cut) :
    Each (IsExact cut.unterminated) bytes cut.lexemes := by
  cases construct with
  | finished => exact .nil
  | whitespace starts =>
      obtain ⟨run, after, rfl, maximal, length⟩ := Bytes.exists_maximalRun starts
      rw [length]
      exact .single maximal
  | closeTag => exact .cons trivial .nil
  | lineComment opens => exact Lexeme.lineComment_isExact opens
  | blockComment opens => exact Lexeme.blockComment_isExact opens
  | sigiled starts => exact Lexeme.variable_isExact starts
  | number => exact Lexeme.number_isExact bytes
  | singleQuoted =>
      rw [cutSingleQuoted]
      split <;> exact .cons trivial .nil
  | doubleQuote => exact Lexeme.quote_isExact (.inl rfl) _
  | backtick => exact Lexeme.quote_isExact (.inr rfl) _
  | name starts => exact Lexeme.name_isExact starts
  | other _ _ noName =>
      rw [cutHeredoc]
      split
      · exact Lexeme.operator_isExact (Byte.lt_of_not_isNameStart noName) _
      · split
        · exact .cons trivial (.cons trivial .nil)
        · exact .cons trivial .nil

/-- Every piece that a mode cuts is exact. -/
theorem cut_isExact (mode : Mode) (bytes : Bytes) :
    Each (IsExact (mode.cut bytes).unterminated) bytes (mode.cut bytes).lexemes := by
  cases mode with
  | text => exact (cutText_isTextCut bytes).isExact
  | script => exact (cutScript_isConstruct bytes).isExact
  | body enclosure =>
      have shape := cutBody_isBodyCut enclosure bytes
      rw [cut]
      generalize cutBody enclosure bytes = result at shape ⊢
      cases shape with
      | closed shape => exact shape.isExact
      | cutOff shape => exact shape.isExact

end Mode

namespace Call

/-- Every call of a scan is made on the page that is scanned. -/
theorem page_of_mem_trace {call other : Call} (member : other ∈ call.trace) :
    other.page = call.page := by
  fun_induction trace call with
  | case1 call => rw [List.mem_singleton.mp member]
  | case2 call mode _ ih =>
      rcases List.mem_cons.mp member with rfl | later
      · rfl
      · rw [ih later, page_onward]

end Call

variable {mode : Mode} {bytes : Bytes} {file : FileId}

theorem mem_scan_tokens_iff {token : Token} : token ∈ (scan mode bytes file).tokens ↔
    ∃ call ∈ (Call.start mode bytes).trace, token ∈ call.tokens file := by
  rw [scan_tokens, Call.tokensOnward, List.mem_flatMap]

/-- Every token of a call is exact where it stands. -/
theorem Call.exists_isExact {call : Call} (member : call ∈ (Call.start mode bytes).trace) :
    ∀ token ∈ call.tokens file, ∃ before after, bytes = before ++ (token.data ++ after) ∧
      token.span.start = before.length ∧
      Lexeme.IsExact call.cut.unterminated token.data after token.kind := by
  have page : call.behind.reverse ++ call.ahead = bytes := page_of_mem_trace member
  have each := Mode.cut_isExact call.mode call.ahead
  rw [← page]
  exact each.exists_around file call.behind

end PageScript
