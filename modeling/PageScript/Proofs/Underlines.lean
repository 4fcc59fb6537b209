import PageScript.Proofs.CharacterBoundaries
import PageScript.Proofs.Decimals
import PageScript.Proofs.Reports
import PageScript.Proofs.SourceLines
import PageScript.Source.Map

/-!
# Where the carets of a snippet stand

A snippet shows the line on which a span begins, as characters, and carets below it.  The
carets are indented by the column of the span, which counts bytes.  So they stand under the
text of the span where only ASCII precedes it on the line, and to the right of it otherwise.
-/

namespace PageScript

namespace Utf8

/-- Bytes are as many as the characters that they encode where they are ASCII, and more
otherwise. -/
theorem length_lossy_eq_iff {bytes : Bytes} (isText : IsText bytes) :
    (lossy bytes).length ≤ bytes.length ∧
      (bytes.length = (lossy bytes).length ↔ ∀ byte ∈ bytes, byte < 0x80) := by
  obtain ⟨chars, rfl⟩ := isText
  rw [lossy, lossyChars_encodeAll, String.length_ofList]
  induction chars with
  | nil => simp [encodeAll]
  | cons char chars ih =>
      obtain ⟨le, same_iff⟩ := ih
      rw [encodeAll_cons, List.length_append, List.forall_mem_append, ← same_iff,
        List.length_cons]
      by_cases small : char.toNat < 0x80
      · have ascii : UInt8.ofNat char.toNat < 0x80 := by
          rw [UInt8.lt_iff_toNat_lt, toNat_ofNat_byte (Nat.lt_trans small (by decide))]
          exact small
        simp only [encode_ascii small, List.length_singleton, List.mem_singleton, forall_eq, ascii,
          true_and]
        omega
      · have beyond := isBeyondAscii_encode (Nat.not_lt.mp small)
        have long : 1 < (encode char).length := by
          rw [String.length_utf8EncodeChar]
          refine Nat.lt_of_le_of_ne (Nat.succ_le_of_lt char.utf8Size_pos) fun one => small ?_
          exact Nat.lt_succ_of_le (UInt32.le_iff_toNat_le.mp (Char.utf8Size_eq_one_iff.mp one.symm))
        constructor
        · omega
        · constructor
          · omega
          · rintro ⟨all, -⟩
            obtain ⟨byte, member⟩ := List.exists_mem_of_ne_nil _ (encode_ne_nil char)
            exact absurd (beyond byte member) (UInt8.not_le.mpr (all byte member))

theorem lineFeed_not_mem_lossy {bytes : Bytes} (isText : IsText bytes)
    (absent : Byte.lineFeed ∉ bytes) : '\n' ∉ (lossy bytes).toList := by
  obtain ⟨chars, rfl⟩ := isText
  rw [lossy, lossyChars_encodeAll, String.toList_ofList]
  exact fun member => absent (List.mem_flatMap.mpr ⟨'\n', member, by decide⟩)

theorem IsText.lossy_append {front back : Bytes} (first : IsText front) (second : IsText back) :
    lossy (front ++ back) = lossy front ++ lossy back := by
  obtain ⟨text, rfl⟩ := first.exists_string
  obtain ⟨other, rfl⟩ := second.exists_string
  rw [← ofString_append, lossy_ofString, lossy_ofString, lossy_ofString]

end Utf8

namespace SourceMap

open Utf8 (IsText)

/-- Number of characters in a row before its first caret. -/
def caretOffset (row : String) : Nat :=
  (row.toList.takeWhile (· ≠ '^')).length

/-- What stands in a row before the line: a line number, or nothing, filled up to the width of
the column. -/
def gutter (file : SourceFile) (number : String) : String :=
  padLeft (gutterWidth file) number ++ " | "

theorem length_gutter {file : SourceFile} {number : String}
    (fits : number.length ≤ gutterWidth file) :
    (gutter file number).length = gutterWidth file + 3 := by
  simp only [gutter, padLeft, String.length_append, String.length_ofList, List.length_replicate]
  rw [Nat.sub_add_cancel fits]
  rfl

theorem not_mem_gutter {char : Char} (noBlank : char ≠ ' ') (noBar : char ≠ '|')
    {number : String} (absent : char ∉ number.toList) (file : SourceFile) :
    char ∉ (gutter file number).toList := by
  simp [gutter, padLeft, absent, noBlank, noBar]

/-- The column of line numbers is wide enough for the number of a line. -/
theorem length_toString_le_gutterWidth (file : SourceFile) {number : Nat}
    (le : number ≤ file.lineCount) : (toString number).length ≤ gutterWidth file :=
  (Text.length_toString_le le).trans (Nat.le_max_right _ _)

/-- The row of carets under a line. -/
def caretRow (file : SourceFile) (indent count : Nat) : String :=
  gutter file "" ++ String.ofList (List.replicate indent ' ') ++
    String.ofList (List.replicate count '^')

section

variable (file : SourceFile) (indent : Nat) {count : Nat}

theorem caretOffset_caretRow (positive : 0 < count) :
    caretOffset (caretRow file indent count) = gutterWidth file + 3 + indent := by
  have noCaret : ∀ char ∈ (gutter file "").toList ++ List.replicate indent ' ', char ≠ '^' := by
    intro char member same
    subst same
    simp [not_mem_gutter] at member
  have width : (gutter file "").toList.length = gutterWidth file + 3 := by
    rw [String.length_toList, length_gutter (Nat.zero_le _)]
  obtain ⟨more, rfl⟩ := Nat.exists_eq_add_of_lt positive
  rw [caretOffset, caretRow, String.toList_append, String.toList_append, String.toList_ofList,
    String.toList_ofList, List.takeWhile_append_of_pos (by simpa using noCaret)]
  simp [List.replicate_succ, width]

theorem caret_mem_caretRow (positive : 0 < count) : '^' ∈ (caretRow file indent count).toList := by
  simp [caretRow, Nat.ne_of_gt positive]

theorem lineFeed_not_mem_caretRow : '\n' ∉ (caretRow file indent count).toList := by
  simp [caretRow, not_mem_gutter]

end

/-- A page is found under the number that it was added with. -/
theorem get?_addFile (map : SourceMap) (name : String) (content : Bytes) :
    let (registered, id) := map.addFile name content
    registered.get? id = some ⟨id, name, content⟩ := by
  simp [addFile, get?, fileCount]

/-- The rows of a snippet about an offset of a page: a heading, the line around the offset
behind a gutter, and carets. -/
structure IsUnderlined {bytes : Bytes} {offset : Nat} (line : bytes.LineAround offset)
    (heading gutter underline : String) : Prop where
  rows : ∀ row ∈ [heading, gutter ++ Utf8.lossy line.front ++ Utf8.lossy line.back, underline],
    '\n' ∉ row.toList
  shown : line.back ≠ []
  carets : '^' ∈ underline.toList
  /-- The carets are indented by the bytes before the offset. -/
  indented : caretOffset underline = gutter.length + line.front.length
  /-- They stand under the character at the offset where each byte before it is one. -/
  aligned_iff : caretOffset underline = (gutter ++ Utf8.lossy line.front).length ↔
    ∀ byte ∈ line.front, byte < 0x80

/-- The text of three rows. -/
def joinRows (heading source underline : String) : String :=
  heading ++ "\n" ++ source ++ "\n" ++ underline

/-- A span that begins with an ASCII character on a line is shown with the line around it. -/
theorem exists_snippet {map : SourceMap} {file : SourceFile} (found : map.get? file.id = some file)
    (oneLine : '\n' ∉ file.name.toList) (isText : IsText file.content) {front rest : Bytes}
    {first : UInt8} (split : file.content = front ++ first :: rest)
    (visible : ¬ SourceFile.isLineBreak first) (small : first < 0x80)
    (short : front.length + 1 < UInt32.size) (size : Nat) :
    let span := Span.after file.id front.reverse size
    ∃ (line : file.content.LineAround span.start) (heading gutter underline : String),
      map.snippet? span =
        some (joinRows heading (gutter ++ Utf8.lossy line.front ++ Utf8.lossy line.back)
          underline) ∧
      IsUnderlined line heading gutter underline := by
  intro span
  have start : span.start = front.length := List.length_reverse
  rw [start]
  obtain ⟨line, more, begins⟩ : ∃ line : file.content.LineAround front.length, ∃ more,
      line.back = first :: more := split ▸ Bytes.exists_lineAround front rest visible
  have ascii : ∀ byte ∈ line.back.head?, byte < 0x80 := by simpa [begins] using small
  obtain ⟨frontText, backText⟩ := line.isText isText ascii
  obtain ⟨number, column⟩ : span.line.toNat = _ ∧ span.column.toNat = _ :=
    line.after_toNat split file.id size short
  have shown := file.lineAt?_lineAround line
  rw [← number] at shown
  have counted : line.before.count Byte.lineFeed + 1 ≤ file.lineCount := by
    rw [SourceFile.lineCount, SourceFile.length_lineStarts]
    exact Nat.succ_le_succ line.count_le
  have wide := length_gutter (length_toString_le_gutterWidth file (number ▸ counted))
  obtain ⟨fewer, same_iff⟩ := Utf8.length_lossy_eq_iff frontText
  let count := underlineLength span (line.front ++ line.back).length
  have positive : 0 < count := Nat.lt_of_lt_of_le Nat.one_pos (Nat.le_max_left _ _)
  have carets := caretOffset_caretRow file line.front.length positive
  have known : map.get? span.file = some file := found
  refine ⟨line, "--> " ++ map.location span, gutter file (toString span.line.toNat),
    caretRow file line.front.length count, ?_, ?_⟩
  · rw [snippet?, known]
    simp only [shown, column, Nat.add_sub_cancel, joinRows, gutter, caretRow,
      frontText.lossy_append backText, String.append_assoc]
    rfl
  · constructor
    · intro row member
      simp only [List.mem_cons, List.not_mem_nil, or_false] at member
      rcases member with rfl | rfl | rfl
      · simp [location, known, oneLine, Text.not_mem_position]
      · obtain ⟨inFront, inBack⟩ := not_or.mp (mt List.mem_append.mpr line.unbroken)
        have number : '\n' ∉ (toString span.line.toNat).toList :=
          Text.not_mem_toString (by decide) _
        simp only [String.toList_append, List.mem_append, not_or]
        exact ⟨⟨not_mem_gutter (by decide) (by decide) number file,
          Utf8.lineFeed_not_mem_lossy frontText inFront⟩,
          Utf8.lineFeed_not_mem_lossy backText inBack⟩
      · exact lineFeed_not_mem_caretRow file _
    · simp [begins]
    · exact caret_mem_caretRow file _ positive
    · rw [carets, wide]
    · rw [carets, String.length_append, wide, ← same_iff]
      exact Nat.add_left_cancel_iff

end SourceMap

/-- A header begins with the less-than sign. -/
theorem Heredoc.IsHeader.exists_less {text label : Bytes} (written : IsHeader text label) :
    ∃ rest, text = Byte.less :: rest := by
  obtain ⟨-, -, -, -⟩ := written
  exact ⟨_, rfl⟩

namespace Literal

open Utf8 (IsText)

/-- The bytes with which a literal can be opened. -/
def openingBytes : Bytes :=
  [Byte.singleQuote, Byte.doubleQuote, Byte.backtick, Byte.less]

/-- A token begins as a literal does. -/
def BeginsLiteral (token : Token) : Prop :=
  ∃ first rest, token.data = first :: rest ∧ first ∈ openingBytes

theorem beginsLiteral_of_opens {enclosure : Enclosure} {token : Token}
    (opens : enclosure.Opens token) : BeginsLiteral token := by
  cases enclosure with
  | doubleQuote => exact ⟨_, _, opens.2, by decide⟩
  | backtick => exact ⟨_, _, opens.2, by decide⟩
  | heredoc label =>
      obtain ⟨rest, data⟩ := opens.2.exists_less
      exact ⟨_, _, data, by decide⟩

section

variable {file : FileId} {behind ahead : Bytes} {tokens : List Token} {warnings : List Warning}

/-- Valid tokens in front make no difference to the invalid ones. -/
theorem beginsLiteral_prepend {front : List Token} (valid : AllValid front)
    (later : ∀ token ∈ tokens, token.kind = .invalid → BeginsLiteral token) :
    ∀ token ∈ front ++ tokens, token.kind = .invalid → BeginsLiteral token := by
  intro token member invalid
  rcases List.mem_append.mp member with inFront | inTokens
  · exact absurd invalid (valid token inFront)
  · exact later token inTokens invalid

/-- Only a string that is not closed is invalid. -/
theorem beginsLiteral_of_invalid (stream : Stream file behind ahead tokens warnings) :
    ∀ token ∈ tokens, token.kind = .invalid → BeginsLiteral token := by
  induction stream with
  | finished => simp
  | @other behind data rest kind tokens warnings _ valid _ _ ih =>
      have front : AllValid [Token.after file behind kind data] := by
        simpa [AllValid, Token.after] using valid
      exact beginsLiteral_prepend front ih
  | @cutOffComment behind data kind line column _ plain =>
      have front : AllValid [Token.after file behind kind data] := by
        cases kind <;> simp_all [AllValid, Token.after, Kind.isPlain]
      exact beginsLiteral_prepend front (by simp)
  | @singleQuoted behind data body rest tokens warnings _ _ ih =>
      have front : AllValid [Token.after file behind .singleQuoted data] := by
        simp [AllValid, Token.after]
      exact beginsLiteral_prepend front ih
  | cutOffQuote => exact List.forall_mem_cons.mpr ⟨fun _ => ⟨_, _, rfl, by decide⟩, by simp⟩
  | @literal behind opening body closing rest kind enclosure parts tokens warnings opens content
      _ ih =>
      have all := content.isPart file (opening.reverse ++ behind)
      have closes := content.closes file (body.reverse ++ (opening.reverse ++ behind))
      have front := (AllValid.of_isPart all).literal opens.valid closes.valid
      simpa using beginsLiteral_prepend front ih
  | @cutOffLiteral behind opening body kind enclosure parts opens _ shape =>
      have all := Lexeme.place_isPart file (opening.reverse ++ behind) body shape.kind
      have front := AllValid.of_isPart all
      refine List.forall_mem_cons.mpr ⟨fun invalid => absurd invalid opens.valid, ?_⟩
      exact fun token member invalid => absurd invalid (front token member)

/-- An error points at a token that begins as a literal does. -/
theorem exists_opener_of_error (stream : Stream file behind ahead tokens warnings)
    {error : LiteralError} (member : .error error ∈ items tokens) :
    ∃ opener ∈ tokens, error.span = opener.span ∧ BeginsLiteral opener := by
  have invalid := beginsLiteral_of_invalid stream
  have verdict := verdict_of_stream stream
  generalize items tokens = all at verdict member
  cases verdict with
  | complete => simp at member
  | comment => simp at member
  | @singleQuoted exprs last line column found kind =>
      have same : error = .malformed last.span := by simpa using member
      subst same
      have inTokens := List.mem_of_getLast? found
      exact ⟨last, inTokens, rfl, invalid last inTokens kind⟩
  | @body exprs enclosure opener _ unclosed =>
      have same : error = .unexpectedEnd enclosure.literal opener.span := by simpa using member
      subst same
      obtain ⟨before, parts, rfl, opens, -⟩ := unclosed
      exact ⟨opener, by simp, rfl, beginsLiteral_of_opens opens⟩

end

/-- Every error about a well-formed page has a snippet that shows the line on which it begins
and underlines it.  The carets are indented by the bytes before the error on its line, which
puts them under it exactly if those are all ASCII. -/
theorem items_underlined {mode : Mode} (outside : mode.isOutside) {bytes : Bytes} {text : String}
    (valid : Utf8.text? bytes = some text) (short : bytes.length + 1 < UInt32.size)
    {name : String} (oneLine : '\n' ∉ name.toList) (map : SourceMap) :
    let (registered, id) := map.addFile name bytes
    ∀ error, .error error ∈ items (scan mode bytes id).tokens →
      ∃ (line : bytes.LineAround error.span.start) (heading gutter underline : String),
        registered.snippet? error.span =
          some (SourceMap.joinRows heading
            (gutter ++ Utf8.lossy line.front ++ Utf8.lossy line.back) underline) ∧
        SourceMap.IsUnderlined line heading gutter underline := by
  let file (id : FileId) : SourceFile := ⟨id, name, bytes⟩
  have found : (map.addFile name bytes).1.get? (map.addFile name bytes).2 =
      some (file (map.addFile name bytes).2) := map.get?_addFile name bytes
  generalize map.addFile name bytes = result at found ⊢
  obtain ⟨registered, id⟩ := result
  intro error member
  obtain ⟨opener, inTokens, span, first, rest, data, opens⟩ :=
    exists_opener_of_error (scan_stream outside bytes id) member
  have tiles : Tiles id [] bytes (scan mode bytes id).tokens := by
    rw [scan_tokens]
    exact (Call.start mode bytes).tokensOnward_tiles id
  obtain ⟨front, written, after, kind, page, rfl⟩ := tiles.exists_of_mem inTokens
  have starts : ∀ byte ∈ openingBytes, ¬ SourceFile.isLineBreak byte ∧ byte < 0x80 := by
    decide +kernel
  obtain ⟨visible, small⟩ := starts first opens
  have split : (file id).content = front ++ first :: (rest ++ after) := by
    have same : written = first :: rest := data
    rw [← List.cons_append, ← same, ← page]
  have before : front.length + 1 < UInt32.size := by
    have length := congrArg List.length page
    rw [List.length_append] at length
    omega
  have isText : IsText bytes := Utf8.text?_eq_some_iff.mp valid ▸ Utf8.isText_ofString text
  have same : error.span = .after id front.reverse written.length := by
    rw [span, List.append_nil]
    rfl
  rw [same]
  exact SourceMap.exists_snippet found oneLine isText split visible small before written.length

/-- A string that is not closed on the second line of a page. -/
theorem items_underlined_secondLine :
    let text := "<?php\n =\"b"
    let page := Utf8.ofString text
    let (registered, id) := ({} : SourceMap).addFile "a.php" page
    let span : Span := ⟨8, 9, 2, 3, id⟩
    Mode.text.isOutside ∧ Utf8.text? page = some text ∧ page.length + 1 < UInt32.size ∧
      '\n' ∉ "a.php".toList ∧
      .error (.unexpectedEnd .doubleQuoted span) ∈ items (scan .text page id).tokens ∧
      ∃ (line : page.LineAround span.start) (heading gutter underline : String),
        registered.snippet? span =
          some (SourceMap.joinRows heading
            (gutter ++ Utf8.lossy line.front ++ Utf8.lossy line.back) underline) ∧
        SourceMap.IsUnderlined line heading gutter underline := by
  have valid : Utf8.text? (Utf8.ofString "<?php\n =\"b") = some "<?php\n =\"b" :=
    Utf8.text?_eq_some_iff.mpr rfl
  have short : (Utf8.ofString "<?php\n =\"b").length + 1 < UInt32.size := by decide +kernel
  have tokens : (scan .text (Utf8.ofString "<?php\n =\"b") ⟨0⟩).tokens =
      [⟨.openTag, ⟨0, 6, 1, 1, ⟨0⟩⟩, Bytes.ascii "<?php\n"⟩,
        ⟨.whitespace, ⟨6, 7, 2, 1, ⟨0⟩⟩, Bytes.ascii " "⟩,
        ⟨.char, ⟨7, 8, 2, 2, ⟨0⟩⟩, Bytes.ascii "="⟩,
        ⟨.char, ⟨8, 9, 2, 3, ⟨0⟩⟩, Bytes.ascii "\""⟩,
        ⟨.bodyText, ⟨9, 10, 2, 4, ⟨0⟩⟩, Bytes.ascii "b"⟩] := by decide +kernel
  have opens : Enclosure.doubleQuote.Opens ⟨.char, ⟨8, 9, 2, 3, ⟨0⟩⟩, Bytes.ascii "\""⟩ :=
    ⟨rfl, rfl⟩
  have member : .error (.unexpectedEnd .doubleQuoted ⟨8, 9, 2, 3, ⟨0⟩⟩) ∈
      items (scan .text (Utf8.ofString "<?php\n =\"b") ⟨0⟩).tokens := by
    rw [tokens, items_cons_of_none rfl, items_cons_of_none rfl, items_cons_of_none rfl,
      items_cons_of_cutOff opens (by decide)]
    exact List.mem_singleton_self _
  exact ⟨rfl, valid, short, by decide, member,
    items_underlined rfl valid short (by decide) {} _ member⟩

/-- Behind a letter of two bytes the carets stand to the right of the quote that is not closed. -/
theorem misaligned_behind_letter :
    let text := "<?php é'x"
    let page := Utf8.ofString text
    let (registered, id) := ({} : SourceMap).addFile "a.php" page
    let span : Span := ⟨8, 10, 1, 9, id⟩
    let front := "  1 | <?php é"
    let underline := "    |         ^^"
    Utf8.text? page = some text ∧ page.length + 1 < UInt32.size ∧ '\n' ∉ "a.php".toList ∧
      items (scan .text page id).tokens = [.error (.malformed span)] ∧
      registered.snippet? span =
        some (SourceMap.joinRows "--> a.php:1:9" (front ++ "'x") underline) ∧
      SourceMap.caretOffset underline ≠ front.length := by
  have tokens : (scan .text (Utf8.ofString "<?php é'x") ⟨0⟩).tokens =
      [⟨.openTag, ⟨0, 6, 1, 1, ⟨0⟩⟩, Bytes.ascii "<?php "⟩,
        ⟨.name, ⟨6, 8, 1, 7, ⟨0⟩⟩, Utf8.ofString "é"⟩,
        ⟨.invalid, ⟨8, 10, 1, 9, ⟨0⟩⟩, Bytes.ascii "'x"⟩] := by decide +kernel
  have reported : items (scan .text (Utf8.ofString "<?php é'x") ⟨0⟩).tokens =
      [.error (.malformed ⟨8, 10, 1, 9, ⟨0⟩⟩)] := by
    rw [tokens, items_cons_of_none rfl, items_cons_of_none rfl, items_cons_of_cutOffQuote rfl rfl,
      items_nil]
  exact ⟨Utf8.text?_eq_some_iff.mpr rfl, by decide +kernel, by decide, reported, by decide +kernel,
    by decide +kernel⟩

end Literal

end PageScript
