import Mathlib.Data.List.Chain
import PageScript.Proofs.Calls

/-!
# Tokens tile the page

The tokens of a scan cover the page from its first byte to its last, without gaps and
without overlaps, and the scan gets there: no call fails, no offset leaves the page,
and every call that is followed by another has read something.

`Tiles` carries the induction.  It says more than that spans meet: a token stands
where the bytes before it end, with the line and column that they give.
-/

namespace PageScript

/-- Tokens stand one behind the other in `covered`, which follows the bytes read,
nearest first. -/
inductive Tiles (file : FileId) : Bytes → Bytes → List Token → Prop where
  | nil {behind : Bytes} : Tiles file behind [] []
  | cons {behind data covered : Bytes} {kind : Kind} {tokens : List Token} :
      data ≠ [] → Tiles file (data.reverse ++ behind) covered tokens →
      Tiles file behind (data ++ covered) (.after file behind kind data :: tokens)

namespace Tiles

variable {file : FileId} {behind covered : Bytes} {tokens : List Token}

theorem append {more : Bytes} {moreTokens : List Token}
    (front : Tiles file behind covered tokens)
    (back : Tiles file (covered.reverse ++ behind) more moreTokens) :
    Tiles file behind (covered ++ more) (tokens ++ moreTokens) := by
  induction front with
  | nil => simpa using back
  | cons nonempty _ ih =>
      rw [List.append_assoc, List.cons_append]
      exact .cons nonempty (ih (by simpa using back))

theorem flatMap_data (tiles : Tiles file behind covered tokens) :
    tokens.flatMap (·.data) = covered := by
  induction tiles with
  | nil => rfl
  | cons _ _ ih => rw [List.flatMap_cons, ih]; rfl

theorem eq_nil_iff (tiles : Tiles file behind covered tokens) :
    tokens = [] ↔ covered = [] := by
  cases tiles with
  | nil => simp
  | cons nonempty => simp [nonempty]

theorem head_start (tiles : Tiles file behind covered tokens) :
    ∀ token ∈ tokens.head?, token.span.start = behind.length := by
  cases tiles with
  | nil => simp
  | cons => simp [Token.after, Span.after]

theorem getLast_stop (tiles : Tiles file behind covered tokens) :
    ∀ token ∈ tokens.getLast?, token.span.stop = behind.length + covered.length := by
  induction tiles with
  | nil => simp
  | @cons behind data covered kind tokens _ later ih =>
      cases tokens with
      | nil =>
          have none := later.eq_nil_iff.mp rfl
          simp [Token.after, Span.after, none]
      | cons next tokens =>
          rw [List.getLast?_cons_cons]
          intro token last
          rw [ih token last]
          simp
          omega

theorem isChain (tiles : Tiles file behind covered tokens) :
    tokens.IsChain fun left right => left.span.stop = right.span.start := by
  induction tiles with
  | nil => exact .nil
  | @cons behind data covered kind tokens _ later ih =>
      refine List.isChain_cons.mpr ⟨fun next first => ?_, ih⟩
      rw [later.head_start next first]
      simp [Token.after, Span.after, Nat.add_comm]

/-- Every token holds the bytes that its span covers, at least one. -/
theorem covers (tiles : Tiles file behind covered tokens) :
    ∀ token ∈ tokens, token.data ≠ [] ∧ token.span.stop = token.span.start + token.data.length ∧
      token.data =
        ((behind.reverse ++ covered).drop token.span.start).take token.data.length := by
  induction tiles with
  | nil => simp
  | @cons behind data covered kind tokens nonempty _ ih =>
      intro token member
      rcases List.mem_cons.mp member with rfl | later
      · refine ⟨nonempty, rfl, ?_⟩
        simp [Token.after, Span.after]
      · simpa using ih token later

end Tiles

theorem Lexeme.place_tiles (file : FileId) {behind ahead : Bytes} {lexemes : List Lexeme}
    (positive : ∀ lexeme ∈ lexemes, 0 < lexeme.size)
    (fits : totalSize lexemes ≤ ahead.length) :
    Tiles file behind (ahead.take (totalSize lexemes)) (place file behind ahead lexemes) := by
  induction lexemes generalizing behind ahead with
  | nil => exact .nil
  | cons lexeme rest ih =>
      have size := positive lexeme List.mem_cons_self
      rw [totalSize_cons] at fits ⊢
      rw [List.take_add]
      refine .cons ?_ (ih (fun other member => positive other (List.mem_cons_of_mem _ member)) ?_)
      · intro none
        have length := congrArg List.length none
        simp only [List.length_take, List.length_nil] at length
        omega
      · rw [List.length_drop]
        omega

namespace Call

variable (file : FileId)

theorem tokens_tiles (call : Call) :
    Tiles file call.behind (call.ahead.take call.size) (call.tokens file) :=
  Lexeme.place_tiles file call.cut_fits.positive call.cut_fits.total_le

/-- The tokens of a call and of all that follow it tile the bytes left. -/
theorem tokensOnward_tiles (call : Call) :
    Tiles file call.behind call.ahead (call.tokensOnward file) := by
  induction call using Call.onward_induction with
  | stop call stops =>
      have tiles := call.tokens_tiles file
      have whole : call.size = call.ahead.length := call.cut_fits.exhausts stops
      rw [whole, List.take_length] at tiles
      rw [tokensOnward_of_stop file stops]
      exact tiles
  | next call mode goesOn ih =>
      rw [tokensOnward_of_next file goesOn]
      rw [← List.take_append_drop call.size call.ahead]
      exact (call.tokens_tiles file).append ih

end Call

/-- The scanners that are asked for their pending text when lexemes are published. -/
def Mode.emissions : List Lexeme → Scanner → List Scanner
  | [], _ => []
  | lexeme :: rest, scanner =>
      let moved := scanner.withCursor (scanner.cursor.skip lexeme.size)
      moved :: match moved.emit lexeme.kind with
        | .error _ => []
        | .ok (_, after) => emissions rest after

/-- The calls of a grammar in a run from a state on a scanner, as the run makes them:
for as long as no token is lost. -/
inductive Grammar.Calls (grammar : Grammar) (state : grammar.State) (scanner : Scanner) :
    grammar.State → Scanner → Prop where
  | first : Calls grammar state scanner state scanner
  | next {current following : grammar.State} {before after : Scanner} :
      Calls grammar state scanner current before →
      grammar.call current before = (.next following, after) → after.halted = false →
      Calls grammar state scanner following after

/-- What holds before the first call and is kept by every call holds before all of
them. -/
theorem Grammar.Calls.invariant {grammar : Grammar} {state : grammar.State} {scanner : Scanner}
    (holds : grammar.State → Scanner → Prop) (start : holds state scanner)
    (step : ∀ current before following after, holds current before →
      grammar.call current before = (.next following, after) → holds following after)
    {current : grammar.State} {before : Scanner}
    (called : grammar.Calls state scanner current before) : holds current before := by
  induction called with
  | first => exact start
  | next _ answer _ ih => exact step _ _ _ _ ih answer

/-- A call goes well: where it begins, and wherever pending text is asked for, the offsets
are in order and inside the page; the call does not fail; and if it is followed by
another, it has read at least one byte. -/
structure Mode.Sound (mode : Mode) (before : Scanner) : Prop where
  standing : before.cursor.InRange
  inRange : ∀ moved ∈ emissions (mode.cut before.cursor.ahead).lexemes before,
    moved.cursor.InRange
  noFault : ∀ fault after, mode.call before ≠ (.fail fault, after)
  progress : ∀ following after, mode.call before = (.next following, after) →
    before.cursor.offset < after.cursor.offset

/-- The tokens cover a page: the first one begins at its front, each of the others where
the one before it ends, the last one ends with the page, and each holds the bytes
that its span covers, of which there are some. -/
structure Tiling (bytes : Bytes) (tokens : List Token) : Prop where
  first : ∀ token ∈ tokens.head?, token.span.start = 0
  adjacent : tokens.IsChain fun left right => left.span.stop = right.span.start
  last : ∀ token ∈ tokens.getLast?, token.span.stop = bytes.length
  nonempty : ∀ token ∈ tokens, token.span.start < token.span.stop
  covers : ∀ token ∈ tokens,
    token.data = (bytes.take token.span.stop).drop token.span.start
  joined : tokens.flatMap (·.data) = bytes
  none_iff : tokens = [] ↔ bytes = []

theorem Mode.emissions_inRange (file : FileId) {behind ahead : Bytes} {published : List Token}
    {warnings : List Warning} {lexemes : List Lexeme}
    (fits : Lexeme.totalSize lexemes ≤ ahead.length) :
    ∀ moved ∈ emissions lexemes (.between file behind ahead published warnings),
      moved.cursor.InRange := by
  induction lexemes generalizing behind ahead published with
  | nil => simp [emissions]
  | cons lexeme rest ih =>
      rw [Lexeme.totalSize_cons] at fits
      have skipped := Cursor.skip_between behind ahead
        (Nat.le_trans (Nat.le_add_right _ _) fits)
      simp only [emissions, Scanner.between_cursor, skipped, Scanner.emit_holding]
      intro moved member
      rcases List.mem_cons.mp member with rfl | later
      · exact Cursor.holding_inRange _ _ _
      · refine ih ?_ moved later
        rw [List.length_drop]
        omega

/-- A mode is called between tokens, on a page. -/
def Mode.CalledOn (bytes : Bytes) (file : FileId) (mode : Mode) (before : Scanner) : Prop :=
  ∃ (call : Call) (published : List Token) (warnings : List Warning),
    call.mode = mode ∧ call.page = bytes ∧ before = call.scanner file published warnings

/-- Every call of a scan is made between tokens, on the page that is scanned. -/
theorem Mode.calledOn_of_calls {mode : Mode} {bytes : Bytes} {file : FileId}
    {current : Mode} {before : Scanner}
    (called : grammar.Calls mode (Scanner.ofBytes bytes file) current before) :
    CalledOn bytes file current before := by
  refine called.invariant (CalledOn bytes file) ?_ ?_
  · exact ⟨.start mode bytes, [], [], rfl, rfl, Call.ofBytes_eq_scanner file mode bytes⟩
  · rintro - - following after ⟨call, published, warnings, rfl, page, rfl⟩ answer
    obtain ⟨-, rfl⟩ := Call.of_call_next answer
    exact ⟨call.onward following, _, _, rfl, page ▸ call.page_onward following, rfl⟩

theorem Call.sound (call : Call) (file : FileId) (published : List Token)
    (warnings : List Warning) :
    call.mode.Sound (call.scanner file published warnings) := by
  constructor
  · exact Cursor.holding_inRange call.behind [] call.ahead
  · exact Mode.emissions_inRange file call.cut_fits.total_le
  · intro fault after answer
    rw [Mode.call_scanner, Prod.mk.injEq, outcome] at answer
    cases next : call.cut.next <;> simp [next] at answer
  · intro following after answer
    obtain ⟨goesOn, rfl⟩ := Call.of_call_next answer
    have progress := call.cut_fits.progress following goesOn
    have length := Bytes.length_readOn call.behind call.ahead call.cut_fits.total_le
    simp only [scanner, Scanner.between_cursor, Cursor.between_offset, onward, size, length]
    omega

theorem Tiles.tiling {file : FileId} {bytes : Bytes} {tokens : List Token}
    (tiles : Tiles file [] bytes tokens) : Tiling bytes tokens where
  first := tiles.head_start
  adjacent := tiles.isChain
  last := by simpa using tiles.getLast_stop
  nonempty := by
    intro token member
    obtain ⟨nonempty, stop, -⟩ := tiles.covers token member
    have positive := List.length_pos_iff.mpr nonempty
    omega
  covers := by
    intro token member
    obtain ⟨-, stop, data⟩ := tiles.covers token member
    rw [List.drop_take, stop, Nat.add_sub_cancel_left]
    simpa using data
  joined := tiles.flatMap_data
  none_iff := tiles.eq_nil_iff

/-- A scan ends as it should, every call it makes goes well, and its tokens tile the
page. -/
theorem scan_tiles (mode : Mode) (bytes : Bytes) (file : FileId) :
    (scan mode bytes file).ending = .finished ∧
      (∀ current before, Mode.grammar.Calls mode (Scanner.ofBytes bytes file) current before →
        Mode.Sound current before) ∧
      Tiling bytes (scan mode bytes file).tokens := by
  refine ⟨scan_ending mode bytes file, ?_, ?_⟩
  · intro current before called
    obtain ⟨call, published, warnings, rfl, -, rfl⟩ := Mode.calledOn_of_calls called
    exact call.sound file published warnings
  · rw [scan_tokens]
    exact ((Call.start mode bytes).tokensOnward_tiles file).tiling

end PageScript
