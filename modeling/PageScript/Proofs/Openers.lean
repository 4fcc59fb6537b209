import PageScript.Proofs.Regions
import PageScript.Proofs.Tiling

/-!
# Openers and items

A quote opens a string, and the same quote closes it.  Which of the two a token does
depends on the quotes before it, and a reader that takes one token too many or too few
turns every later string inside out.

`Literal.openers` pairs the quotes off without compiling anything.  Each opener it leaves
gives one item, in order, and the item covers the bytes from its opener to its terminator:
the parts of a body lie end to end between the two.
-/

namespace PageScript

namespace Span

/-- Spans lie end to end from one offset to another, and none is empty. -/
inductive Tile : Nat → List Span → Nat → Prop where
  | nil {offset : Nat} : Tile offset [] offset
  | cons {start stop : Nat} {span : Span} {rest : List Span} :
      span.start = start → start < span.stop → Tile span.stop rest stop →
      Tile start (span :: rest) stop

/-- Spans from an offset on, each behind all before it, and none empty. -/
structure Ordered (offset : Nat) (spans : List Span) : Prop where
  inside : ∀ span ∈ spans, offset ≤ span.start
  nonempty : ∀ span ∈ spans, span.start < span.stop
  apart : spans.Pairwise fun left right => left.stop ≤ right.start

namespace Ordered

variable {offset : Nat} {spans : List Span}

theorem nil : Ordered offset [] :=
  ⟨by simp, by simp, .nil⟩

theorem mono {earlier : Nat} (ordered : Ordered offset spans) (le : earlier ≤ offset) :
    Ordered earlier spans :=
  { ordered with inside := fun span member => Nat.le_trans le (ordered.inside span member) }

theorem cons {span : Span} (starts : offset ≤ span.start) (nonempty : span.start < span.stop)
    (later : Ordered span.stop spans) : Ordered offset (span :: spans) where
  inside := by
    refine List.forall_mem_cons.mpr ⟨starts, fun other member => ?_⟩
    have behind := later.inside other member
    omega
  nonempty := List.forall_mem_cons.mpr ⟨nonempty, later.nonempty⟩
  apart := .cons later.inside later.apart

end Ordered

end Span

/-- The spans of tokens that tile a page lie end to end. -/
theorem Tiles.tile_span {file : FileId} {behind covered : Bytes} {tokens : List Token}
    (tiles : Tiles file behind covered tokens) :
    Span.Tile behind.length (tokens.map (·.span)) (behind.length + covered.length) := by
  induction tiles with
  | nil => exact .nil
  | @cons behind data covered kind tokens nonempty _ ih =>
      have positive := List.length_pos_iff.mpr nonempty
      have stop : behind.length + (data ++ covered).length =
          behind.length + data.length + covered.length := by
        simp [Nat.add_assoc]
      rw [Bytes.length_reverse_append] at ih
      rw [stop]
      exact .cons rfl (Nat.lt_add_of_pos_right positive) ih

/-- The tokens of a body tile it. -/
theorem Enclosure.IsContent.tiles {enclosure : Enclosure} {body closing rest : Bytes}
    {parts : List Lexeme} (content : enclosure.IsContent body parts closing rest)
    (file : FileId) (behind : Bytes) :
    Tiles file behind body (Lexeme.place file behind body parts) := by
  cases content with
  | atOnce => exact .nil
  | body _ shape _ =>
      have total := shape.totalSize_eq
      have tiles : Tiles file behind (body.take (Lexeme.totalSize parts))
          (Lexeme.place file behind body parts) :=
        Lexeme.place_tiles file shape.positive (Nat.le_of_eq total)
      rwa [total, List.take_length] at tiles

theorem Token.part_span (token : Token) : token.part.span = token.span := by
  rw [part]
  split <;> rfl

/-- The quote that a body waits for.  A heredoc waits for none. -/
def Enclosure.waiting : Enclosure → Option Delimiter
  | .doubleQuote => some .doubleQuote
  | .backtick => some .backtick
  | .heredoc _ => none

namespace Literal

/-- The tokens that open a literal, where an earlier opener may be waiting for its quote.
The quote that it waits for closes it, and any other one opens a literal. -/
def openers : Option Delimiter → List Token → List Token
  | _, [] => []
  | waiting, token :: rest =>
      match token.kind with
      | .singleQuoted | .invalid | .heredocStart => token :: openers waiting rest
      | .char =>
          match Delimiter.ofQuote? token.data with
          | none => openers waiting rest
          | some quote =>
              if waiting = some quote then openers none rest
              else token :: openers (some quote) rest
      | _ => openers waiting rest

section

variable {token : Token} {enclosure : Enclosure} {parts : List Token}

theorem ofQuote?_eq_none (kind : token.kind = .char) (opensNothing : opening? token = none) :
    Delimiter.ofQuote? token.data = none := by
  have unquoted (enclosure : Enclosure) : ¬ enclosure.Opens token := fun opens => by
    simp [opens.opening?] at opensNothing
  rw [Delimiter.ofQuote?, if_neg fun data => unquoted .doubleQuote ⟨kind, data⟩,
    if_neg fun data => unquoted .backtick ⟨kind, data⟩]

/-- A token that opens nothing is no opener, whatever is waited for. -/
theorem openers_cons_of_none (valid : token.kind ≠ .invalid)
    (opensNothing : opening? token = none) (waiting : Option Delimiter) (rest : List Token) :
    openers waiting (token :: rest) = openers waiting rest := by
  rw [openers]
  cases kind : token.kind with
  | char => simp [ofQuote?_eq_none kind opensNothing]
  | singleQuoted => simp [opening?, kind] at opensNothing
  | heredocStart => simp [opening?, kind] at opensNothing
  | invalid => contradiction
  | _ => rfl

theorem openers_append_of_isPart (all : ∀ part ∈ parts, part.isPart)
    (waiting : Option Delimiter) (rest : List Token) :
    openers waiting (parts ++ rest) = openers waiting rest := by
  induction parts with
  | nil => rfl
  | cons part parts ih =>
      obtain ⟨isPart, others⟩ := List.forall_mem_cons.mp all
      have kind := Token.isPart_iff.mp isPart
      have valid : part.kind ≠ .invalid := by rcases kind with same | same <;> simp [same]
      have opensNothing : opening? part = none := by
        rcases kind with same | same <;> simp [opening?, same]
      rw [List.cons_append, openers_cons_of_none valid opensNothing, ih others]

theorem openers_cons_of_opens (opens : enclosure.Opens token) (rest : List Token) :
    openers none (token :: rest) = token :: openers enclosure.waiting rest := by
  rw [openers]
  cases enclosure with
  | doubleQuote =>
      obtain ⟨kind, data⟩ := opens
      simp [kind, data, Enclosure.waiting]
  | backtick =>
      obtain ⟨kind, data⟩ := opens
      simp [kind, data, Enclosure.waiting]
  | heredoc label =>
      obtain ⟨kind, -⟩ := opens
      simp [kind, Enclosure.waiting]

theorem openers_cons_of_closes (closes : enclosure.Closes token) (rest : List Token) :
    openers enclosure.waiting (token :: rest) = openers none rest := by
  rw [openers]
  cases enclosure with
  | doubleQuote =>
      obtain ⟨kind, data⟩ := closes
      simp [kind, data, Enclosure.waiting]
  | backtick =>
      obtain ⟨kind, data⟩ := closes
      simp [kind, data, Enclosure.waiting]
  | heredoc label =>
      have kind : token.kind = .heredocEnd := closes
      simp [kind, Enclosure.waiting]

/-- Of the tokens of a literal only the first is an opener. -/
theorem openers_of_closes (opens : enclosure.Opens token) (all : ∀ part ∈ parts, part.isPart)
    {terminator : Token} (closes : enclosure.Closes terminator) (rest : List Token) :
    openers none (token :: (parts ++ terminator :: rest)) = token :: openers none rest := by
  rw [openers_cons_of_opens opens, openers_append_of_isPart all, openers_cons_of_closes closes]

theorem openers_of_cutOff (opens : enclosure.Opens token) (all : ∀ part ∈ parts, part.isPart) :
    openers none (token :: parts) = [token] := by
  have passed := openers_append_of_isPart all enclosure.waiting []
  rw [List.append_nil] at passed
  rw [openers_cons_of_opens opens, passed, openers]

end

/-- What an item says about the tokens that it was compiled from. -/
inductive Compiles (tokens : List Token) (opener : Token) : Item → Prop where
  | error {error : LiteralError} :
      error.span = opener.span → Compiles tokens opener (.error error)
  | literal {value : Bytes} {span : Span} :
      opener.kind = .singleQuoted → span = opener.span →
      Compiles tokens opener (.ok (.literal value span))
  | concat {before body after : List Token} {terminator : Token} {enclosure : Enclosure}
      {parts : List Expr} {span : Span} :
      tokens = before ++ opener :: (body ++ terminator :: after) →
      enclosure.Opens opener → enclosure.Closes terminator → (∀ part ∈ body, part.isPart) →
      span.start = opener.span.start → span.stop = terminator.span.stop →
      Span.Tile opener.span.stop (parts.map Expr.span) terminator.span.start →
      Compiles tokens opener (.ok (.concat parts span))

theorem Compiles.prepend {tokens : List Token} {opener : Token} {item : Item}
    (compiles : Compiles tokens opener item) (front : List Token) :
    Compiles (front ++ tokens) opener item := by
  cases compiles with
  | error span => exact .error span
  | literal kind span => exact .literal kind span
  | concat stands opens closes all start stop tile =>
      rw [stands, ← List.append_assoc]
      exact .concat rfl opens closes all start stop tile

/-- Where the literals among items stand. -/
def literalSpans (items : List Item) : List Span :=
  items.filterMap fun item =>
    match item with
    | .ok expr => some expr.span
    | .error _ => none

/-- The openers among tokens give the items, one each, and the literals among the items
stand one behind the other from an offset on. -/
structure Accounted (offset : Nat) (tokens : List Token) : Prop where
  compiled : List.Forall₂ (Compiles tokens) (openers none tokens) (items tokens)
  ordered : Span.Ordered offset (literalSpans (items tokens))

namespace Accounted

variable {offset later : Nat} {front tokens : List Token} {opener : Token}

theorem nil : Accounted offset [] where
  compiled := by
    rw [items_nil]
    exact .nil
  ordered := by
    rw [items_nil]
    exact .nil

/-- Tokens that give no item are passed over. -/
theorem pass (accounted : Accounted later tokens) (le : offset ≤ later)
    (opened : openers none (front ++ tokens) = openers none tokens)
    (compiled : items (front ++ tokens) = items tokens) : Accounted offset (front ++ tokens) where
  compiled := by
    rw [opened, compiled]
    exact accounted.compiled.imp fun _ _ compiles => compiles.prepend front
  ordered := by
    rw [compiled]
    exact accounted.ordered.mono le

/-- The tokens of a literal give one item. -/
theorem literal (expr : Expr) (accounted : Accounted expr.span.stop tokens)
    (opened : openers none (front ++ tokens) = opener :: openers none tokens)
    (compiled : items (front ++ tokens) = .ok expr :: items tokens)
    (compiles : Compiles (front ++ tokens) opener (.ok expr))
    (starts : offset ≤ expr.span.start) (nonempty : expr.span.start < expr.span.stop) :
    Accounted offset (front ++ tokens) where
  compiled := by
    rw [opened, compiled]
    exact .cons compiles (accounted.compiled.imp fun _ _ other => other.prepend front)
  ordered := by
    rw [compiled]
    exact .cons starts nonempty accounted.ordered

/-- A body with its terminator gives one item, which its parts tile. -/
theorem concat {enclosure : Enclosure} {parts : List Token} {terminator : Token}
    (accounted : Accounted terminator.span.stop tokens) (opens : enclosure.Opens opener)
    (all : ∀ part ∈ parts, part.isPart) (closes : enclosure.Closes terminator)
    (tile : Span.Tile opener.span.stop (parts.map (·.span)) terminator.span.start)
    (starts : offset ≤ opener.span.start)
    (nonempty : opener.span.start < terminator.span.stop) :
    Accounted offset (opener :: (parts ++ terminator :: tokens)) := by
  have front : opener :: (parts ++ terminator :: tokens) =
      (opener :: (parts ++ [terminator])) ++ tokens := by simp
  have opened := openers_of_closes opens all closes tokens
  have compiled := items_cons_of_closes opens all closes tokens
  have covered : (parts.map Token.part).map Expr.span = parts.map (·.span) := by
    simp [Token.part_span]
  have compiles : Compiles (opener :: (parts ++ terminator :: tokens)) opener
      (.ok (.concat (parts.map Token.part) (cover opener terminator))) :=
    .concat (List.nil_append _).symm opens closes all rfl rfl (covered ▸ tile)
  rw [front] at opened compiled compiles ⊢
  exact .literal (.concat (parts.map Token.part) (cover opener terminator)) accounted opened
    compiled compiles starts nonempty

/-- Tokens that give one error and nothing else. -/
theorem error {error : LiteralError} (opened : openers none tokens = [opener])
    (compiled : items tokens = [.error error]) (span : error.span = opener.span) :
    Accounted offset tokens where
  compiled := by
    rw [opened, compiled]
    exact .cons (.error span) .nil
  ordered := by
    rw [compiled]
    exact .nil

end Accounted

/-- The tokens of a stream are accounted for. -/
theorem accounted_of_stream {file : FileId} {behind ahead : Bytes} {tokens : List Token}
    {warnings : List Warning} (stream : Stream file behind ahead tokens warnings) :
    Accounted behind.length tokens := by
  induction stream with
  | finished => exact .nil
  | @other behind data rest kind tokens warnings _ valid opensNothing _ ih =>
      have le : behind.length ≤ (data.reverse ++ behind).length := by simp
      have accounted : Accounted behind.length ([.after file behind kind data] ++ tokens) :=
        .pass ih le (openers_cons_of_none valid opensNothing none tokens)
          (items_cons_of_none opensNothing)
      exact accounted
  | @cutOffComment behind data kind _ _ _ plain =>
      have opensNothing : opening? (.after file behind kind data) = none :=
        opening?_of_isPlain plain
      have valid : kind ≠ .invalid := by
        rintro rfl
        contradiction
      have accounted : Accounted behind.length ([.after file behind kind data] ++ []) :=
        .pass .nil (Nat.le_refl _) (openers_cons_of_none valid opensNothing none [])
          (items_cons_of_none opensNothing)
      exact accounted
  | @singleQuoted behind data body rest tokens warnings quoted _ ih =>
      have positive : 0 < data.length := by simp [quoted]
      rw [Bytes.length_reverse_append] at ih
      have accounted : Accounted behind.length
          ([.after file behind .singleQuoted data] ++ tokens) :=
        .literal (.literal (Escape.decodeSingle body) (.after file behind data.length)) ih rfl
          (items_cons_of_quoted rfl quoted) (.literal rfl rfl) (Nat.le_refl _)
          (Nat.lt_add_of_pos_right positive)
      exact accounted
  | @cutOffQuote behind body =>
      exact .error rfl ((items_cons_of_cutOffQuote rfl rfl).trans (by rw [items_nil])) rfl
  | @literal behind opening body closing rest kind enclosure lexemes tokens warnings opens content
      _ ih =>
      have isPart := content.isPart file (opening.reverse ++ behind)
      have closes := content.closes file (body.reverse ++ (opening.reverse ++ behind))
      have tile := (content.tiles file (opening.reverse ++ behind)).tile_span
      have positive := List.length_pos_iff.mpr opens.data_ne_nil
      rw [Bytes.length_reverse_append] at ih
      rw [← Bytes.length_reverse_append, Bytes.length_reverse_append opening] at tile
      refine .concat ih opens isPart closes tile (Nat.le_refl _) ?_
      simp only [Token.after, Span.after, Bytes.length_reverse_append] at positive ⊢
      omega
  | @cutOffLiteral behind opening body kind enclosure lexemes opens _ shape =>
      have isPart := Lexeme.place_isPart file (opening.reverse ++ behind) body shape.kind
      exact .error (openers_of_cutOff opens isPart) (items_cons_of_cutOff opens isPart) rfl

/-- Each opener of a page gives one item, in order, and its item covers it: a literal with
variables reaches from the opener to the terminator, and its parts tile what is between.
Literals stand one behind the other. -/
theorem items_openers {mode : Mode} (outside : mode.isOutside) (bytes : Bytes)
    (file : FileId) :
    let tokens := (scan mode bytes file).tokens
    List.Forall₂ (Compiles tokens) (openers none tokens) (items tokens) ∧
      Span.Ordered 0 (literalSpans (items tokens)) := by
  intro tokens
  have accounted : Accounted 0 tokens := accounted_of_stream (scan_stream outside bytes file)
  exact ⟨accounted.compiled, accounted.ordered⟩

/-- Three strings, of which the end of the page cuts off the last. -/
theorem items_openers_cutOff :
    let tokens := (scan .script (Bytes.ascii "\"a$b'\".'c\"'.\x60\"") {}).tokens
    Mode.script.isOutside ∧ (openers none tokens).map (·.span.start) = [0, 7, 12] ∧
      List.Forall₂ (Compiles tokens) (openers none tokens) (items tokens) ∧
      Span.Ordered 0 (literalSpans (items tokens)) :=
  ⟨rfl, by decide +kernel, items_openers rfl _ {}⟩

end Literal

end PageScript
