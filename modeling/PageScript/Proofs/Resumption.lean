import Mathlib.Data.List.Forall2
import PageScript.Proofs.Tiling

/-!
# Resumed scans

A scan can be taken up at any of its calls.  The tokens from there on are those of a fresh
scan of the bytes left, begun in the mode of that call, only further on in the page: what
a call takes depends on its mode and on the bytes ahead of it, and on nothing else that the
calls before it have left in the scanner.
-/

namespace PageScript

/-- A token of the same kind with the same bytes, `offset` bytes further on. -/
structure Token.ShiftedBy (offset : Nat) (token other : Token) : Prop where
  kind : other.kind = token.kind
  data : other.data = token.data
  start : other.span.start = token.span.start + offset
  stop : other.span.stop = token.span.stop + offset

variable {offset : Nat} {file fresh : FileId}

/-- Further on in a page, lexemes are placed further on. -/
theorem Lexeme.place_shifted {behind behindToo : Bytes}
    (further : behindToo.length = behind.length + offset) (ahead : Bytes)
    (lexemes : List Lexeme) :
    List.Forall₂ (Token.ShiftedBy offset) (place fresh behind ahead lexemes)
      (place file behindToo ahead lexemes) := by
  induction lexemes generalizing behind behindToo ahead with
  | nil => exact .nil
  | cons lexeme rest ih =>
      have furtherToo : (behindToo.readOn ahead lexeme.size).length =
          (behind.readOn ahead lexeme.size).length + offset := by
        simp only [Bytes.readOn, List.length_append]
        omega
      refine .cons ⟨rfl, rfl, further, ?_⟩ (ih furtherToo _)
      simp only [Token.after, Span.after, further]
      omega

namespace Call

/-- A call of the same mode on the same bytes, `offset` bytes further on. -/
structure ShiftedBy (offset : Nat) (call other : Call) : Prop where
  mode : other.mode = call.mode
  ahead : other.ahead = call.ahead
  behind : other.behind.length = call.behind.length + offset

variable {call other : Call}

theorem ShiftedBy.cut_eq (shifted : ShiftedBy offset call other) : other.cut = call.cut := by
  rw [cut, cut, shifted.mode, shifted.ahead]

theorem ShiftedBy.tokens (shifted : ShiftedBy offset call other) :
    List.Forall₂ (Token.ShiftedBy offset) (call.tokens fresh) (other.tokens file) := by
  rw [Call.tokens, Call.tokens, shifted.cut_eq, shifted.ahead]
  exact Lexeme.place_shifted shifted.behind call.ahead call.cut.lexemes

theorem ShiftedBy.onward (shifted : ShiftedBy offset call other) (mode : Mode) :
    ShiftedBy offset (call.onward mode) (other.onward mode) where
  mode := rfl
  ahead := by simp only [Call.onward, size, shifted.cut_eq, shifted.ahead]
  behind := by
    have further := shifted.behind
    simp only [Call.onward, Bytes.readOn, size, shifted.cut_eq, shifted.ahead,
      List.length_append]
    omega

/-- What is scanned from a call on does not depend on what lies behind it. -/
theorem ShiftedBy.tokensOnward (shifted : ShiftedBy offset call other) :
    List.Forall₂ (Token.ShiftedBy offset) (call.tokensOnward fresh)
      (other.tokensOnward file) := by
  induction call using onward_induction generalizing other with
  | stop call stops =>
      have stopsToo : other.cut.next = none := shifted.cut_eq ▸ stops
      rw [tokensOnward_of_stop fresh stops, tokensOnward_of_stop file stopsToo]
      exact shifted.tokens
  | next call mode goesOn ih =>
      have goesOnToo : other.cut.next = some mode := shifted.cut_eq ▸ goesOn
      rw [tokensOnward_of_next fresh goesOn, tokensOnward_of_next file goesOnToo]
      exact List.rel_append shifted.tokens (ih (shifted.onward mode))

/-- A call is a fresh start of its mode, further on in the page. -/
theorem shiftedBy_start (call : Call) :
    ShiftedBy call.behind.length (start call.mode call.ahead) call :=
  ⟨rfl, rfl, (Nat.zero_add _).symm⟩

end Call

theorem Tiles.stop_le {behind covered : Bytes} {tokens : List Token}
    (tiles : Tiles file behind covered tokens) :
    ∀ token ∈ tokens, token.span.stop ≤ behind.length + covered.length := by
  induction tiles with
  | nil => simp
  | @cons behind data covered kind tokens _ _ ih =>
      rw [List.length_append]
      intro token member
      rcases List.mem_cons.mp member with rfl | later
      · simp only [Token.after, Span.after]
        omega
      · have bound := ih token later
        rw [Bytes.length_reverse_append] at bound
        omega

/-- A call of a scan, behind the tokens that were published before it: they cover the page
up to it, and with those of the call and of all later calls they are the tokens of the
page. -/
structure Mode.Reaches (mode : Mode) (bytes : Bytes) (file : FileId) (call : Call)
    (published : List Token) : Prop where
  page : call.page = bytes
  tiles : Tiles file [] call.behind.reverse published.reverse
  tokens : (scan mode bytes file).tokens = published.reverse ++ call.tokensOnward file

namespace Mode

variable {mode following : Mode} {bytes : Bytes} {call : Call} {published : List Token}

theorem reaches_start (mode : Mode) (bytes : Bytes) (file : FileId) :
    Reaches mode bytes file (.start mode bytes) [] where
  page := rfl
  tiles := .nil
  tokens := scan_tokens mode bytes file

/-- Every call keeps the tokens of the page together. -/
theorem Reaches.onward (reaches : Reaches mode bytes file call published)
    (goesOn : call.cut.next = some following) :
    Reaches mode bytes file (call.onward following)
      ((call.tokens file).reverse ++ published) where
  page := (call.page_onward following).trans reaches.page
  tiles := by
    have tiles := reaches.tiles.append (by simpa using call.tokens_tiles file)
    simpa [Call.onward, Bytes.readOn] using tiles
  tokens := by
    rw [reaches.tokens, Call.tokensOnward_of_next file goesOn]
    simp

theorem Reaches.left (reaches : Reaches mode bytes file call published) :
    bytes.drop call.behind.length = call.ahead := by
  rw [← reaches.page, Call.page, ← List.length_reverse, List.drop_left]

/-- Behind a call that goes on the next call is made. -/
theorem calls_onward {scanner : Scanner} {warnings : List Warning}
    (called : grammar.Calls mode scanner call.mode (call.scanner file published warnings))
    (goesOn : call.cut.next = some following) :
    grammar.Calls mode scanner following
      ((call.onward following).scanner file ((call.tokens file).reverse ++ published)
        (call.warning?.toList ++ warnings)) := by
  have answer := call_scanner file published warnings call
  rw [Call.outcome_eq_next_iff.mpr goesOn] at answer
  exact .next called answer rfl

/-- Every call of a scan is reached behind what the scanner has published. -/
theorem exists_reaches_of_calls {current : Mode} {before : Scanner}
    (called : grammar.Calls mode (Scanner.ofBytes bytes file) current before) :
    ∃ call published warnings, call.mode = current ∧
      before = call.scanner file published warnings ∧
      Reaches mode bytes file call published := by
  refine called.invariant (fun current before => ∃ call published warnings,
    call.mode = current ∧ before = call.scanner file published warnings ∧
      Reaches mode bytes file call published) ?_ ?_
  · exact ⟨.start mode bytes, [], [], rfl, Call.ofBytes_eq_scanner file mode bytes,
      reaches_start mode bytes file⟩
  · rintro - - following after ⟨call, published, warnings, rfl, rfl, reaches⟩ answer
    obtain ⟨goesOn, rfl⟩ := Call.of_call_next answer
    exact ⟨call.onward following, _, _, rfl, rfl, reaches.onward goesOn⟩

/-- The tokens of a scan are those published before one of its calls, and those of that
call and of all that follow it. -/
theorem exists_onward_of_calls {current : Mode} {before : Scanner}
    (called : grammar.Calls mode (Scanner.ofBytes bytes file) current before) :
    ∃ behind, before.cursor.offset = behind.length ∧
      (scan mode bytes file).tokens = before.tokens ++
        (Call.mk current behind (bytes.drop before.cursor.offset)).tokensOnward file := by
  obtain ⟨call, published, warnings, rfl, rfl, reaches⟩ := exists_reaches_of_calls called
  exact ⟨call.behind, rfl, reaches.left.symm ▸ reaches.tokens⟩

end Mode

/-- Tokens taken up at a call of a mode: the ones published before it lie before its
offset, and the others are those of the bytes left, scanned afresh in that mode. -/
structure Mode.Resumes (bytes : Bytes) (tokens : List Token) (current : Mode)
    (before : Scanner) : Prop where
  offset_le : before.cursor.offset ≤ bytes.length
  published : before.tokens <+: tokens
  stop_le : ∀ token ∈ before.tokens, token.span.stop ≤ before.cursor.offset
  later : ∀ fresh, List.Forall₂ (Token.ShiftedBy before.cursor.offset)
    (scan current (bytes.drop before.cursor.offset) fresh).tokens
    (tokens.drop before.tokens.length)

theorem Mode.Reaches.resumes {mode : Mode} {bytes : Bytes} {call : Call}
    {published : List Token} (reaches : Reaches mode bytes file call published)
    (warnings : List Warning) :
    Resumes bytes (scan mode bytes file).tokens call.mode
      (call.scanner file published warnings) := by
  have offset : (call.scanner file published warnings).cursor.offset = call.behind.length := rfl
  have tokens : (call.scanner file published warnings).tokens = published.reverse := rfl
  constructor
  · rw [offset, ← reaches.page, Call.page, List.length_append, List.length_reverse]
    exact Nat.le_add_right _ _
  · rw [tokens, reaches.tokens]
    exact List.prefix_append _ _
  · rw [offset, tokens]
    simpa using reaches.tiles.stop_le
  · intro fresh
    rw [offset, tokens, reaches.left, reaches.tokens, List.drop_left, scan_tokens]
    exact call.shiftedBy_start.tokensOnward

/-- Behind an open tag the script is scanned as it is on its own. -/
theorem scan_tokens_openTag (body : Bytes) (file fresh : FileId) :
    ∃ later, (scan .text (Bytes.ascii "<?php " ++ body) file).tokens =
        ⟨.openTag, ⟨0, 6, 1, 1, file⟩, Bytes.ascii "<?php "⟩ :: later ∧
      List.Forall₂ (Token.ShiftedBy 6) (scan .script body fresh).tokens later := by
  have script : Call.ShiftedBy 6 (.start .script body)
      (.mk .script (Bytes.ascii "<?php ").reverse body) := ⟨rfl, rfl, rfl⟩
  refine ⟨_, scan_openTag body file, ?_⟩
  rw [scan_tokens]
  exact script.tokensOnward

/-- A scan can be taken up wherever it calls a mode.  In particular, what follows an open
tag is scanned as a script on its own. -/
theorem scan_resumes (file : FileId) :
    (∀ mode bytes current before,
      Mode.grammar.Calls mode (Scanner.ofBytes bytes file) current before →
      Mode.Resumes bytes (scan mode bytes file).tokens current before) ∧
    ∀ body fresh, ∃ later,
      (scan .text (Bytes.ascii "<?php " ++ body) file).tokens =
        ⟨.openTag, ⟨0, 6, 1, 1, file⟩, Bytes.ascii "<?php "⟩ :: later ∧
      List.Forall₂ (Token.ShiftedBy 6) (scan .script body fresh).tokens later := by
  constructor
  · intro mode bytes current before called
    obtain ⟨call, published, warnings, rfl, rfl, reaches⟩ := Mode.exists_reaches_of_calls called
    exact reaches.resumes warnings
  · intro body fresh
    exact scan_tokens_openTag body file fresh

/-- Behind its tags a page is text again, and its last byte is scanned as a page. -/
theorem scan_resumes_closeTag :
    let page := Bytes.ascii "<?php ?>a"
    ∃ before, Mode.grammar.Calls .text (Scanner.ofBytes page {}) .text before ∧
      before.cursor.offset = 8 ∧ before.tokens.length = 2 ∧
      Mode.Resumes page (scan .text page {}).tokens .text before := by
  intro page
  let opener := Call.start .text page
  let closer := opener.onward .script
  have opened : opener.cut.next = some .script := by decide +kernel
  have closed : closer.cut.next = some .text := by decide +kernel
  have begun : Mode.grammar.Calls Mode.text (Scanner.ofBytes page {}) Mode.text
      (opener.scanner {} [] []) := .first
  have called := Mode.calls_onward (Mode.calls_onward begun opened) closed
  exact ⟨_, called, by decide +kernel, by decide +kernel, (scan_resumes {}).1 _ _ _ _ called⟩

end PageScript
