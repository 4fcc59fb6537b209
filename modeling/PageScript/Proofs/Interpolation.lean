import PageScript.Proofs.Stream
import PageScript.Proofs.Unescaped

/-!
# The value of an interpolated literal

A literal with variables is compiled part by part: each run of text is decoded by itself,
and variables stand between.  Written out again, with every variable as it was, the
parts are what decoding the whole body would have given.

The scanner leaves no backslash unpaired before a variable, so the pieces of the body
are those of its tokens.
-/

namespace PageScript

namespace Lexeme

/-- A line break that a backslash leaves alone is no backslash. -/
theorem ne_of_keepsLineBreak {enclosure : Enclosure} {byte : UInt8}
    (keeps : keepsLineBreak enclosure byte) : byte ≠ Byte.backslash := by
  cases enclosure with
  | doubleQuote => contradiction
  | backtick => contradiction
  | heredoc label =>
      simp only [keepsLineBreak, Bool.or_eq_true, beq_iff_eq] at keeps
      rcases keeps with rfl | rfl <;> decide

/-- A variable does not begin with a line break. -/
theorem not_keepsLineBreak_of_startsVariable (enclosure : Enclosure) {bytes : Bytes}
    (starts : startsVariable bytes) :
    bytes.startsWhere fun byte => !keepsLineBreak enclosure byte := by
  cases bytes with
  | nil => contradiction
  | cons byte rest =>
      simp only [startsVariable, Bool.and_eq_true, beq_iff_eq] at starts
      obtain ⟨rfl, -⟩ := starts
      cases enclosure <;> rfl

/-- Text that is not cut off and does not end at a line break leaves no backslash without a
byte to take. -/
theorem isPaired_take_textLength {enclosure : Enclosure} {bytes : Bytes}
    (stops : Bytes.startsWhere (fun byte => !keepsLineBreak enclosure byte)
      (bytes.drop (textLength enclosure bytes))) :
    Escape.IsPaired (bytes.take (textLength enclosure bytes)) := by
  fun_induction textLength enclosure bytes with
  | case1 => exact .nil
  | case2 => contradiction
  | case3 following after keeps ih =>
      have paired := ih stops
      cases length : textLength enclosure (following :: after) with
      | zero => simp [length, keeps] at stops
      | succ length =>
          rw [length, List.take_succ_cons] at paired
          exact .pair (paired.tail (ne_of_keepsLineBreak keeps))
  | case4 following after _ ih => exact .pair (ih stops)
  | case5 => exact .nil
  | case6 => exact .nil
  | case7 byte rest notBackslash _ _ ih => exact .byte notBackslash (ih stops)

theorem isPaired_of_textLength {enclosure : Enclosure} {text rest : Bytes}
    (length : textLength enclosure (text ++ rest) = text.length)
    (stops : rest.startsWhere fun byte => !keepsLineBreak enclosure byte) :
    Escape.IsPaired text := by
  have left : (text ++ rest).drop (textLength enclosure (text ++ rest)) = rest := by
    rw [length, List.drop_left]
  have paired := isPaired_take_textLength (left.symm ▸ stops)
  rwa [length, List.take_left] at paired

theorem IsVariable.not_mem_backslash {sigiled : Bytes} (isVariable : IsVariable sigiled) :
    Byte.backslash ∉ sigiled := by
  obtain ⟨name, rfl, isName⟩ := isVariable
  intro member
  rcases List.mem_cons.mp member with same | inName
  · contradiction
  · exact absurd (isName.members _ inName) (by decide)

theorem IsVariable.startsVariable {sigiled : Bytes} (isVariable : IsVariable sigiled)
    (rest : Bytes) : startsVariable (sigiled ++ rest) := by
  obtain ⟨name, rfl, isName⟩ := isVariable
  simp [Lexeme.startsVariable, Bytes.startsWhere_append isName.ne_nil, isName.starts]

theorem IsVariable.isPaired {sigiled : Bytes} (isVariable : IsVariable sigiled) :
    Escape.IsPaired sigiled :=
  .of_not_mem isVariable.not_mem_backslash

/-- Text in front of a variable leaves no backslash unpaired. -/
theorem IsVariable.isPaired_before {enclosure : Enclosure} {text sigiled rest : Bytes}
    (isVariable : IsVariable sigiled)
    (length : textLength enclosure (text ++ (sigiled ++ rest)) = text.length) :
    Escape.IsPaired text :=
  isPaired_of_textLength length
    (not_keepsLineBreak_of_startsVariable enclosure (isVariable.startsVariable rest))

namespace IsParts

variable {enclosure : Enclosure} {body rest : Bytes} {parts : List Lexeme}

/-- The pieces of a body are those of its tokens. -/
theorem pieces_eq (shape : IsParts enclosure body parts rest) (file : FileId) (behind : Bytes) :
    Escape.pieces body =
      (place file behind body parts).flatMap fun token => Escape.pieces token.data := by
  induction shape generalizing behind with
  | @text text rest length =>
      rw [place_text]
      split
      · next none => simp [none]
      · simp [Token.after]
  | @interpolated text sigiled body rest parts length isVariable stops _ ih =>
      have paired := isVariable.isPaired_before length
      have plain := isVariable.not_mem_backslash
      obtain ⟨name, rfl, -⟩ := isVariable
      rw [place_interpolated, place_bodyText, List.flatMap_append, List.flatMap_cons,
        ← ih (_ ++ (text.reverse ++ behind)), List.cons_append, Escape.pieces_append paired,
        ← List.cons_append, Escape.pieces_append_of_not_mem plain]
      split
      · next none => simp [none, Token.after]
      · simp [Token.after]

/-- A variable among the parts of a body stands behind text that leaves no backslash
unpaired, and its name goes no further. -/
theorem exists_split_of_variable (shape : IsParts enclosure body parts rest) (file : FileId)
    (behind : Bytes) {token : Token} (member : token ∈ place file behind body parts)
    (kind : token.kind = .variable) :
    ∃ front back, body = front ++ (token.data ++ back) ∧ Escape.IsPaired front ∧
      token.span.start = behind.length + front.length ∧ IsVariable token.data ∧
      ¬ Bytes.startsWhere Byte.isNamePart (back ++ rest) := by
  induction shape generalizing behind with
  | @text text rest length =>
      rw [place_text] at member
      split at member
      · contradiction
      · rw [List.mem_singleton.mp member] at kind
        contradiction
  | @interpolated text sigiled body rest parts length isVariable stops _ ih =>
      have paired := isVariable.isPaired_before length
      rw [place_interpolated, place_bodyText] at member
      rcases List.mem_append.mp member with inText | inRest
      · split at inText
        · contradiction
        · rw [List.mem_singleton.mp inText] at kind
          contradiction
      · rcases List.mem_cons.mp inRest with rfl | inRest
        · refine ⟨text, body, rfl, paired, ?_, isVariable, stops⟩
          simp [Token.after, Span.after, Nat.add_comm]
        · obtain ⟨front, back, rfl, pairedToo, start, isVariableToo, stopsToo⟩ := ih _ inRest
          have whole : Escape.IsPaired (text ++ (sigiled ++ front)) :=
            paired.append_iff.mpr (isVariable.isPaired.append_iff.mpr pairedToo)
          refine ⟨text ++ (sigiled ++ front), back, by simp, whole, ?_, isVariableToo, stopsToo⟩
          simp only [start, List.length_append, List.length_reverse]
          omega

end IsParts

end Lexeme

namespace Expr

mutual

/-- An expression written out: known bytes as they are, a variable with its sigil. -/
def spell : Expr → Bytes
  | .literal value _ => value
  | .variable name _ => Byte.dollar :: name
  | .concat parts _ => spellAll parts

/-- Parts written out one behind the other. -/
def spellAll : List Expr → Bytes
  | [] => []
  | part :: rest => spell part ++ spellAll rest

end

/-- Parts without a variable have the value that they are written with. -/
theorem constantAll?_of_literals {tokens : List Token}
    (literals : ∀ name span, .variable name span ∉ tokens.map Token.part) :
    constantAll? (tokens.map Token.part) = some (spellAll (tokens.map Token.part)) := by
  induction tokens with
  | nil => rfl
  | cons token tokens ih =>
      have later := ih fun name span member => literals name span (List.mem_cons_of_mem _ member)
      by_cases text : token.kind = .bodyText
      · simp [constantAll?, constant?, spellAll, spell, Token.part, text, later]
      · have named : Token.part token = .variable (token.data.drop 1) token.span := by
          simp [Token.part, text]
        have member : Token.part token ∈ (token :: tokens).map Token.part := List.mem_cons_self
        rw [named] at member
        exact absurd member (literals _ _)

end Expr

/-- A part of a body is written out as its decoded bytes. -/
theorem Token.spell_part {token : Token} (isPart : token.isPart)
    (isVariable : token.kind = .variable → Lexeme.IsVariable token.data) :
    token.part.spell = Escape.decode token.data := by
  rcases Token.isPart_iff.mp isPart with kind | kind
  · simp [part, kind, Expr.spell]
  · have plain := (isVariable kind).not_mem_backslash
    obtain ⟨name, split, -⟩ := isVariable kind
    rw [Escape.decode_of_not_mem plain]
    simp [part, kind, Expr.spell, split]

namespace Enclosure.IsContent

variable {enclosure : Enclosure} {body closing rest : Bytes} {parts : List Lexeme}

theorem pieces_eq (content : enclosure.IsContent body parts closing rest) (file : FileId)
    (behind : Bytes) :
    Escape.pieces body =
      (Lexeme.place file behind body parts).flatMap fun token => Escape.pieces token.data := by
  cases content with
  | atOnce => simp
  | body _ shape => exact shape.pieces_eq file behind

theorem isVariable (content : enclosure.IsContent body parts closing rest) (file : FileId)
    (behind : Bytes) : ∀ token ∈ Lexeme.place file behind body parts,
      token.kind = .variable → Lexeme.IsVariable token.data := by
  cases content with
  | atOnce => simp
  | body _ shape =>
      intro token member kind
      obtain ⟨_, _, _, _, _, isVariable, _⟩ :=
        shape.exists_split_of_variable file behind member kind
      exact isVariable

/-- The parts of a body, written out, are the whole body decoded. -/
theorem spellAll_eq (content : enclosure.IsContent body parts closing rest) (file : FileId)
    (behind : Bytes) :
    Expr.spellAll ((Lexeme.place file behind body parts).map Token.part) =
      Escape.decode body := by
  have isPart := content.isPart file behind
  have isVariable := content.isVariable file behind
  rw [Escape.decode_eq_flatMap_pieces, content.pieces_eq file behind]
  generalize Lexeme.place file behind body parts = tokens at isPart isVariable
  induction tokens with
  | nil => rfl
  | cons token tokens ih =>
      obtain ⟨first, isPart⟩ := List.forall_mem_cons.mp isPart
      obtain ⟨named, isVariable⟩ := List.forall_mem_cons.mp isVariable
      rw [List.map_cons, Expr.spellAll, Token.spell_part first named, ih isPart isVariable,
        List.flatMap_cons, List.flatMap_append, Escape.decode_eq_flatMap_pieces]

end Enclosure.IsContent

namespace Literal

/-- A literal with variables among the tokens of a page.  Its body has the same pieces,
cut at the variables or read whole, and so it has the same value. -/
structure Interpolated (bytes : Bytes) (tokens : List Token) (parts : List Expr) (span : Span)
    (enclosure : Enclosure) (opener : Token) (body : List Token) (terminator : Token) : Prop where
  stands : ∃ before after, tokens = before ++ opener :: (body ++ terminator :: after)
  opens : enclosure.Opens opener
  closes : enclosure.Closes terminator
  isPart : ∀ token ∈ body, token.isPart
  parts_eq : parts = body.map Token.part
  span_eq : span = cover opener terminator
  pieces_eq : Escape.pieces (between bytes opener terminator) =
    body.flatMap fun token => Escape.pieces token.data
  spelled : Expr.spellAll parts = Escape.decode (between bytes opener terminator)
  constant : (∀ name place, .variable name place ∉ parts) →
    (Expr.concat parts span).constant? =
      some (Escape.decode (between bytes opener terminator))

/-- Tokens before a literal change nothing about it. -/
theorem Interpolated.prepend {bytes : Bytes} {tokens body : List Token} {parts : List Expr}
    {span : Span} {enclosure : Enclosure} {opener terminator : Token} (front : List Token)
    (literal : Interpolated bytes tokens parts span enclosure opener body terminator) :
    Interpolated bytes (front ++ tokens) parts span enclosure opener body terminator := by
  obtain ⟨before, after, rfl⟩ := literal.stands
  exact { literal with stands := ⟨front ++ before, after, (List.append_assoc ..).symm⟩ }

/-- The opener, the body and the terminator of a literal, where they stand. -/
theorem interpolated_of_isContent {file : FileId} {behind opening body closing rest : Bytes}
    {kind : Kind} {enclosure : Enclosure} {lexemes : List Lexeme}
    (opens : enclosure.Opens (.after file behind kind opening))
    (content : enclosure.IsContent body lexemes closing rest) (tokens : List Token) :
    let opener := Token.after file behind kind opening
    let parts := Lexeme.place file (opening.reverse ++ behind) body lexemes
    let terminator := Token.after file (body.reverse ++ (opening.reverse ++ behind))
      enclosure.closerKind closing
    Interpolated (behind.reverse ++ (opening ++ (body ++ (closing ++ rest))))
      (opener :: (parts ++ terminator :: tokens)) (parts.map Token.part)
      (cover opener terminator) enclosure opener parts terminator := by
  intro opener parts terminator
  have inner : between (behind.reverse ++ (opening ++ (body ++ (closing ++ rest)))) opener
      terminator = body :=
    between_after file behind opening body closing rest kind enclosure.closerKind
  have spelled := content.spellAll_eq file (opening.reverse ++ behind)
  exact {
    stands := ⟨[], tokens, rfl⟩
    opens
    closes := content.closes file _
    isPart := content.isPart file _
    parts_eq := rfl
    span_eq := rfl
    pieces_eq := by
      rw [inner]
      exact content.pieces_eq file _
    spelled := by rw [inner, spelled]
    constant := fun literals => by
      rw [inner, ← spelled]
      exact Expr.constantAll?_of_literals literals }

/-- Every literal with variables stands among the tokens of a stream. -/
theorem interpolated_of_stream {file : FileId} {behind ahead : Bytes} {tokens : List Token}
    {warnings : List Warning} {parts : List Expr} {span : Span}
    (stream : Stream file behind ahead tokens warnings)
    (compiled : .ok (.concat parts span) ∈ items tokens) :
    ∃ enclosure opener body terminator,
      Interpolated (behind.reverse ++ ahead) tokens parts span enclosure opener body
        terminator := by
  induction stream with
  | finished => simp at compiled
  | @other behind data rest kind tokens warnings _ _ opensNothing _ ih =>
      rw [items_cons_of_none opensNothing] at compiled
      obtain ⟨enclosure, opener, body, terminator, literal⟩ := ih compiled
      refine ⟨enclosure, opener, body, terminator, ?_⟩
      simpa using literal.prepend [_]
  | cutOffComment _ plain =>
      rw [items_cons_of_none (opening?_of_isPlain plain), items_nil] at compiled
      contradiction
  | @singleQuoted behind data body rest tokens warnings quoted _ ih =>
      rw [items_cons_of_quoted rfl quoted] at compiled
      obtain ⟨enclosure, opener, body, terminator, literal⟩ := ih (by simpa using compiled)
      refine ⟨enclosure, opener, body, terminator, ?_⟩
      simpa using literal.prepend [_]
  | cutOffQuote =>
      rw [items_cons_of_cutOffQuote rfl rfl, items_nil] at compiled
      simp at compiled
  | @literal behind opening body closing rest kind enclosure lexemes tokens warnings opens content
      _ ih =>
      have isPart := content.isPart file (opening.reverse ++ behind)
      have closes := content.closes file (body.reverse ++ (opening.reverse ++ behind))
      rw [items_cons_of_closes opens isPart closes] at compiled
      rcases List.mem_cons.mp compiled with same | later
      · obtain ⟨rfl, rfl⟩ : parts = _ ∧ span = _ := by simpa using same
        refine ⟨enclosure, _, _, _, interpolated_of_isContent opens content tokens⟩
      · obtain ⟨enclosure, opener, body, terminator, literal⟩ := ih later
        refine ⟨enclosure, opener, body, terminator, ?_⟩
        simp only [List.reverse_append, List.reverse_reverse, List.append_assoc] at literal
        rw [← List.cons_append, List.append_cons]
        exact literal.prepend _
  | cutOffLiteral opens _ shape =>
      rw [items_cons_of_cutOff opens (Lexeme.place_isPart file _ _ shape.kind)] at compiled
      simp at compiled

/-- The value of a literal with variables is that of its whole body, decoded. -/
theorem items_interpolated {mode : Mode} (outside : mode.isOutside) (bytes : Bytes)
    (file : FileId) {parts : List Expr} {span : Span}
    (compiled : .ok (.concat parts span) ∈ items (scan mode bytes file).tokens) :
    ∃ enclosure opener body terminator,
      Interpolated bytes (scan mode bytes file).tokens parts span enclosure opener body
        terminator := by
  have literal := interpolated_of_stream (scan_stream outside bytes file) compiled
  simpa using literal

/-- A double-quoted string with text and a variable. -/
theorem items_interpolated_quoted :
    let page := Bytes.ascii "\"a$b\""
    let tokens := (scan .script page {}).tokens
    ∃ parts span, .ok (.concat parts span) ∈ items tokens ∧
      ∃ enclosure opener body terminator,
        Interpolated page tokens parts span enclosure opener body terminator := by
  intro page tokens
  have opens : Enclosure.doubleQuote.Opens
      ⟨.char, ⟨0, 1, 1, 1, {}⟩, [Byte.doubleQuote]⟩ := ⟨rfl, rfl⟩
  have closes : Enclosure.doubleQuote.Closes
      ⟨.char, ⟨4, 5, 1, 5, {}⟩, [Byte.doubleQuote]⟩ := ⟨rfl, rfl⟩
  have scanned : tokens =
      ⟨.char, ⟨0, 1, 1, 1, {}⟩, [Byte.doubleQuote]⟩ ::
        ([⟨.bodyText, ⟨1, 2, 1, 2, {}⟩, Bytes.ascii "a"⟩,
          ⟨.variable, ⟨2, 4, 1, 3, {}⟩, Bytes.ascii "$b"⟩] ++
        ⟨.char, ⟨4, 5, 1, 5, {}⟩, [Byte.doubleQuote]⟩ :: []) := by
    decide +kernel
  obtain ⟨parts, span, member⟩ : ∃ parts span, .ok (.concat parts span) ∈ items tokens := by
    rw [scanned, items_cons_of_closes opens (by decide) closes]
    exact ⟨_, _, List.mem_cons_self⟩
  exact ⟨parts, span, member, items_interpolated rfl page {} member⟩

end Literal

end PageScript
