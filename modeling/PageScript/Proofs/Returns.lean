import PageScript.Proofs.ClosingLine

/-!
# Carriage returns before line feeds

A page may end its lines with a line feed or with a carriage return and a line feed.
`Bytes.withReturns` turns the first form into the second.  Places in the two pages drift
apart by one byte per line, so a look ahead is compared by `Bytes.Aligned`: what it finds
in the one page and what it finds in the other cover the same bytes.

Almost every look ahead stays aligned, because a carriage return is asked for nowhere
except in line breaks and belongs to the same classes of bytes as a line feed.
-/

namespace PageScript

namespace Bytes

/-- The bytes with a carriage return put before every line feed. -/
def withReturns (bytes : Bytes) : Bytes :=
  bytes.flatMap fun byte =>
    if byte = Byte.lineFeed then [Byte.carriageReturn, Byte.lineFeed] else [byte]

@[simp] theorem withReturns_nil : withReturns [] = [] := rfl

@[simp] theorem withReturns_append (front back : Bytes) :
    withReturns (front ++ back) = withReturns front ++ withReturns back :=
  List.flatMap_append

theorem withReturns_lineFeed (rest : Bytes) :
    withReturns (Byte.lineFeed :: rest) =
      Byte.carriageReturn :: Byte.lineFeed :: withReturns rest := rfl

theorem withReturns_cons {byte : UInt8} (other : byte ≠ Byte.lineFeed) (rest : Bytes) :
    withReturns (byte :: rest) = byte :: withReturns rest := by
  simp [withReturns, other]

theorem withReturns_of_not_mem {bytes : Bytes} (plain : Byte.lineFeed ∉ bytes) :
    withReturns bytes = bytes := by
  induction bytes with
  | nil => rfl
  | cons byte rest ih =>
      obtain ⟨other, later⟩ := List.ne_and_not_mem_of_not_mem_cons plain
      rw [withReturns_cons (Ne.symm other), ih later]

@[simp] theorem count_withReturns (bytes : Bytes) :
    (withReturns bytes).count Byte.lineFeed = bytes.count Byte.lineFeed := by
  induction bytes with
  | nil => rfl
  | cons byte rest ih =>
      by_cases feed : byte = Byte.lineFeed
      · subst feed
        rw [withReturns_lineFeed, List.count_cons_of_ne (by decide), List.count_cons_self,
          List.count_cons_self, ih]
      · rw [withReturns_cons feed, List.count_cons_of_ne feed, List.count_cons_of_ne feed, ih]

variable {accept : UInt8 → Bool}

/-- A class that holds both bytes of a line break or neither is met at the front of both
pages. -/
theorem startsWhere_withReturns (same : accept Byte.carriageReturn = accept Byte.lineFeed)
    (bytes : Bytes) : startsWhere accept (withReturns bytes) = startsWhere accept bytes := by
  cases bytes with
  | nil => rfl
  | cons byte rest =>
      by_cases feed : byte = Byte.lineFeed
      · subst feed
        exact same
      · rw [withReturns_cons feed]
        rfl

/-- Any other byte is met at the front of both pages. -/
theorem startsWhere_beq_withReturns {special : UInt8} (notReturn : Byte.carriageReturn ≠ special)
    (notFeed : Byte.lineFeed ≠ special) (bytes : Bytes) :
    startsWhere (· == special) (withReturns bytes) = startsWhere (· == special) bytes :=
  startsWhere_withReturns (by rw [beq_false_of_ne notReturn, beq_false_of_ne notFeed]) bytes

/-- A pattern does not begin with a byte that it does not hold. -/
theorem not_isPrefixOf_of_not_mem {pattern : Bytes} (nonempty : pattern ≠ []) {byte : UInt8}
    (absent : byte ∉ pattern) (rest : Bytes) : pattern.isPrefixOf (byte :: rest) = false := by
  cases pattern with
  | nil => contradiction
  | cons first pattern =>
      have differs : first ≠ byte := Ne.symm (List.ne_and_not_mem_of_not_mem_cons absent).1
      simp [List.isPrefixOf_cons_cons, differs]

/-- A pattern without line breaks is met at the front of both pages. -/
theorem isPrefixOf_withReturns {pattern : Bytes} (noFeed : Byte.lineFeed ∉ pattern)
    (noReturn : Byte.carriageReturn ∉ pattern) (bytes : Bytes) :
    pattern.isPrefixOf (withReturns bytes) = pattern.isPrefixOf bytes := by
  induction pattern generalizing bytes with
  | nil => simp
  | cons first pattern ih =>
      have laterFeed := (List.ne_and_not_mem_of_not_mem_cons noFeed).2
      have laterReturn := (List.ne_and_not_mem_of_not_mem_cons noReturn).2
      have nonempty := List.cons_ne_nil first pattern
      cases bytes with
      | nil => rfl
      | cons byte rest =>
          by_cases feed : byte = Byte.lineFeed
          · subst feed
            rw [withReturns_lineFeed, not_isPrefixOf_of_not_mem nonempty noFeed,
              not_isPrefixOf_of_not_mem nonempty noReturn]
          · rw [withReturns_cons feed, List.isPrefixOf_cons_cons, List.isPrefixOf_cons_cons,
              ih laterFeed laterReturn]

/-- The first `count` bytes are the first `other` bytes with returns. -/
inductive Aligned : Bytes → Nat → Nat → Prop where
  | mk (front back : Bytes) : Aligned (front ++ back) front.length (withReturns front).length

namespace Aligned

variable {bytes : Bytes} {count other : Nat}

theorem zero (bytes : Bytes) : Aligned bytes 0 0 := .mk [] bytes

theorem all (bytes : Bytes) : Aligned bytes bytes.length (withReturns bytes).length := by
  simpa using Aligned.mk bytes []

/-- Bytes without line feeds are as many with returns. -/
theorem of_not_mem {front : Bytes} (plain : Byte.lineFeed ∉ front) (back : Bytes) :
    Aligned (front ++ back) front.length front.length := by
  have aligned := Aligned.mk front back
  rwa [withReturns_of_not_mem plain] at aligned

theorem one {byte : UInt8} (notFeed : byte ≠ Byte.lineFeed) (rest : Bytes) :
    Aligned (byte :: rest) 1 1 := by
  have plain : Byte.lineFeed ∉ [byte] := by simpa using Ne.symm notFeed
  exact of_not_mem plain rest

/-- Behind aligned fronts stand the same bytes. -/
theorem drop (aligned : Aligned bytes count other) :
    (withReturns bytes).drop other = withReturns (bytes.drop count) := by
  obtain ⟨front, back⟩ := aligned
  rw [withReturns_append, List.drop_left, List.drop_left]

theorem take (aligned : Aligned bytes count other) :
    (withReturns bytes).take other = withReturns (bytes.take count) := by
  obtain ⟨front, back⟩ := aligned
  rw [withReturns_append, List.take_left, List.take_left]

/-- Aligned fronts can be found one behind the other. -/
theorem add {more others : Nat} (aligned : Aligned bytes count other)
    (later : Aligned (bytes.drop count) more others) :
    Aligned bytes (count + more) (other + others) := by
  obtain ⟨front, back⟩ := aligned
  rw [List.drop_left] at later
  obtain ⟨middle, back⟩ := later
  have whole := Aligned.mk (front ++ middle) back
  rwa [withReturns_append, List.append_assoc, List.length_append, List.length_append] at whole

theorem cons {byte : UInt8} {rest : Bytes} (notFeed : byte ≠ Byte.lineFeed)
    (later : Aligned rest count other) : Aligned (byte :: rest) (count + 1) (other + 1) := by
  rw [Nat.add_comm count, Nat.add_comm other]
  exact (one notFeed rest).add later

theorem lineFeed {rest : Bytes} (later : Aligned rest count other) :
    Aligned (Byte.lineFeed :: rest) (count + 1) (other + 2) := by
  rw [Nat.add_comm count, Nat.add_comm other]
  exact (Aligned.mk [Byte.lineFeed] rest).add later

end Aligned

/-- Both pages have the front that is looked for, aligned, or neither has it. -/
abbrev AlignedIfFound (bytes : Bytes) : Option Nat → Option Nat → Prop :=
  Option.Rel (Aligned bytes)

/-- What is found further on is found here. -/
theorem AlignedIfFound.map {bytes rest : Bytes} {found others : Option Nat}
    (later : AlignedIfFound rest found others) {shift shiftToo : Nat → Nat}
    (aligned : ∀ {count other}, Aligned rest count other →
      Aligned bytes (shift count) (shiftToo other)) :
    AlignedIfFound bytes (found.map shift) (others.map shiftToo) := by
  cases later with
  | none => exact .none
  | some inRest => exact .some (aligned inRest)

variable {bytes : Bytes}

theorem runLength_aligned (same : accept Byte.carriageReturn = accept Byte.lineFeed)
    (bytes : Bytes) :
    Aligned bytes (runLength accept bytes) (runLength accept bytes.withReturns) := by
  obtain ⟨run, rest, rfl, members, stops, length⟩ := exists_run accept bytes
  have stopsToo : ¬ startsWhere accept (withReturns rest) := by
    rwa [startsWhere_withReturns same]
  have membersToo : ∀ byte ∈ withReturns run, accept byte := by
    intro byte member
    obtain ⟨source, inRun, image⟩ := List.mem_flatMap.mp member
    split at image
    · next feed =>
        have feedIn : accept Byte.lineFeed := feed ▸ members source inRun
        simp only [List.mem_cons, List.not_mem_nil, or_false] at image
        rcases image with rfl | rfl
        · rw [same]
          exact feedIn
        · exact feedIn
    · exact List.mem_singleton.mp image ▸ members source inRun
  rw [length, withReturns_append, runLength_append_of_stops membersToo stopsToo]
  exact .mk run rest

theorem nameLength_aligned (bytes : Bytes) :
    Aligned bytes (nameLength bytes) (nameLength bytes.withReturns) := by
  rw [nameLength, nameLength, startsWhere_withReturns (by decide)]
  split
  · exact runLength_aligned (by decide) bytes
  · exact .zero bytes

theorem lineBreakLength_aligned (noReturn : Byte.carriageReturn ∉ bytes) :
    Aligned bytes (lineBreakLength bytes) (lineBreakLength bytes.withReturns) := by
  cases bytes with
  | nil => exact .zero []
  | cons byte rest =>
      have notReturn : byte ≠ Byte.carriageReturn := by
        rintro rfl
        exact noReturn List.mem_cons_self
      by_cases feed : byte = Byte.lineFeed
      · subst feed
        exact .mk [Byte.lineFeed] rest
      · rw [withReturns_cons feed]
        simpa [lineBreakLength, feed, notReturn] using Aligned.zero (byte :: rest)

/-- A byte that the pattern does not hold is passed over. -/
theorem offsetOf?_cons_of_not_mem {pattern : Bytes} (nonempty : pattern ≠ []) {byte : UInt8}
    (absent : byte ∉ pattern) (rest : Bytes) :
    offsetOf? pattern (byte :: rest) = (offsetOf? pattern rest).map (· + 1) := by
  rw [offsetOf?, not_isPrefixOf_of_not_mem nonempty absent]
  rfl

theorem offsetOf?_aligned {pattern : Bytes} (nonempty : pattern ≠ [])
    (noFeed : Byte.lineFeed ∉ pattern) (noReturn : Byte.carriageReturn ∉ pattern)
    (bytes : Bytes) :
    AlignedIfFound bytes (offsetOf? pattern bytes) (offsetOf? pattern bytes.withReturns) := by
  induction bytes with
  | nil =>
      have none : offsetOf? pattern [] = none := by simp [offsetOf?, nonempty]
      rw [withReturns_nil, none]
      exact .none
  | cons byte rest ih =>
      by_cases feed : byte = Byte.lineFeed
      · subst feed
        rw [withReturns_lineFeed, offsetOf?_cons_of_not_mem nonempty noFeed,
          offsetOf?_cons_of_not_mem nonempty noReturn, offsetOf?_cons_of_not_mem nonempty noFeed,
          Option.map_map]
        exact AlignedIfFound.map ih Aligned.lineFeed
      · have here := isPrefixOf_withReturns noFeed noReturn (byte :: rest)
        rw [withReturns_cons feed] at here ⊢
        rw [offsetOf?, offsetOf?, here]
        split
        · exact .some (.zero _)
        · exact AlignedIfFound.map ih (Aligned.cons feed)

/-- A page without carriage returns is what is left when they are dropped again. -/
theorem filter_withReturns (noReturn : Byte.carriageReturn ∉ bytes) :
    (withReturns bytes).filter (· != Byte.carriageReturn) = bytes := by
  induction bytes with
  | nil => rfl
  | cons byte rest ih =>
      obtain ⟨other, later⟩ := List.ne_and_not_mem_of_not_mem_cons noReturn
      by_cases feed : byte = Byte.lineFeed
      · subst feed
        rw [withReturns_lineFeed, List.filter_cons_of_neg (by decide),
          List.filter_cons_of_pos (by decide), ih later]
      · rw [withReturns_cons feed, List.filter_cons_of_pos (by simpa using Ne.symm other), ih later]

theorem IsName.not_mem_carriageReturn {name : Bytes} (isName : IsName name) :
    Byte.carriageReturn ∉ name :=
  fun member => absurd (isName.members _ member) (by decide)

end Bytes

namespace Heredoc

open Bytes (Aligned AlignedIfFound IsLineBreak IsName withReturns)

variable {bytes label : Bytes}

theorem not_mem_of_isBlank {blanks : Bytes} (blank : ∀ byte ∈ blanks, Byte.isBlank byte) :
    Byte.lineFeed ∉ blanks ∧ Byte.carriageReturn ∉ blanks :=
  ⟨fun member => absurd (blank _ member) (by decide),
    fun member => absurd (blank _ member) (by decide)⟩

/-- A header ends with its only line break, and would be one with another line break. -/
theorem IsHeader.exists_lineBreak {text : Bytes} (written : IsHeader text label) :
    ∃ front lineBreak, text = front ++ lineBreak ∧ Byte.lineFeed ∉ front ∧
      Byte.carriageReturn ∉ front ∧ IsLineBreak lineBreak ∧
      ∀ other, IsLineBreak other → IsHeader (front ++ other) label := by
  obtain @⟨blanks, quote, label, lineBreak, blank, quoted, isName, ends⟩ := written
  obtain ⟨noFeed, noReturn⟩ := not_mem_of_isBlank blank
  have inOpener : Byte.lineFeed ∉ opener ∧ Byte.carriageReturn ∉ opener := by decide
  have inQuote : Byte.lineFeed ∉ quote ∧ Byte.carriageReturn ∉ quote := by
    rcases quoted with rfl | rfl <;> decide
  refine ⟨opener ++ blanks ++ quote ++ label ++ quote, lineBreak, rfl, ?_, ?_, ends,
    fun other endsToo => .mk blank quoted isName endsToo⟩
  · simp [inOpener.1, noFeed, inQuote.1, isName.not_mem_lineFeed]
  · simp [inOpener.2, noReturn, inQuote.2, isName.not_mem_carriageReturn]

/-- A header of the one page is a header of the other, with the same label. -/
theorem header?_withReturns_of_some {header : Header} (noReturn : Byte.carriageReturn ∉ bytes)
    (found : header? bytes = some header) :
    ∃ size, header? bytes.withReturns = some ⟨size, header.label⟩ ∧
      Aligned bytes header.size size := by
  obtain ⟨text, rest, rfl, written, size⟩ := exists_isHeader found
  obtain ⟨front, lineBreak, rfl, noFeed, -, ends, others⟩ := written.exists_lineBreak
  have feeds : lineBreak = [Byte.lineFeed] := by
    rcases ends with feeds | rfl
    · exact feeds
    · simp at noReturn
  have image : withReturns (front ++ lineBreak) =
      front ++ [Byte.carriageReturn, Byte.lineFeed] := by
    rw [Bytes.withReturns_append, Bytes.withReturns_of_not_mem noFeed, feeds]
    rfl
  have writtenToo : IsHeader (withReturns (front ++ lineBreak)) header.label := by
    rw [image]
    exact others _ (.inr rfl)
  refine ⟨(withReturns (front ++ lineBreak)).length, ?_, ?_⟩
  · rw [Bytes.withReturns_append, header?_append writtenToo]
  · rw [size]
    exact .mk _ rest

/-- What is no header in the one page is none in the other. -/
theorem header?_withReturns_of_none (noReturn : Byte.carriageReturn ∉ bytes)
    (missing : header? bytes = none) : header? bytes.withReturns = none := by
  rw [Option.eq_none_iff_forall_ne_some]
  intro header found
  obtain ⟨text, rest, split, written, -⟩ := exists_isHeader found
  obtain ⟨front, lineBreak, rfl, -, noReturnToo, ends, others⟩ := written.exists_lineBreak
  have dropped : lineBreak.filter (· != Byte.carriageReturn) = [Byte.lineFeed] := by
    rcases ends with rfl | rfl <;> rfl
  have kept : front.filter (· != Byte.carriageReturn) = front := by
    refine List.filter_eq_self.mpr fun byte member => bne_iff_ne.mpr ?_
    exact ne_of_mem_of_not_mem member noReturnToo
  have source : bytes = front ++ [Byte.lineFeed] ++ rest.filter (· != Byte.carriageReturn) := by
    rw [← Bytes.filter_withReturns noReturn, split, List.filter_append, List.filter_append, kept,
      dropped]
  rw [source, header?_append (others _ (.inl rfl))] at missing
  contradiction

/-- A closing line takes the same bytes of both pages, for there is no line feed in it. -/
theorem closingLength?_withReturns (isName : IsName label) (bytes : Bytes) :
    closingLength? label bytes.withReturns = closingLength? label bytes := by
  obtain ⟨blanks, line, rfl, blank, stops, indent⟩ := Bytes.exists_run Byte.isBlank bytes
  have stopsToo : ¬ line.withReturns.startsWhere Byte.isBlank := by
    rwa [Bytes.startsWhere_withReturns (by decide)]
  have starts := Bytes.isPrefixOf_withReturns isName.not_mem_lineFeed
    isName.not_mem_carriageReturn line
  rw [Bytes.withReturns_append, Bytes.withReturns_of_not_mem (not_mem_of_isBlank blank).1]
  simp only [closingLength?, indent, Bytes.runLength_append_of_stops blank stopsToo,
    List.drop_left, starts]
  by_cases found : label.isPrefixOf line
  · obtain ⟨rest, rfl⟩ := List.isPrefixOf_iff_prefix.mp found
    rw [Bytes.withReturns_append, Bytes.withReturns_of_not_mem isName.not_mem_lineFeed,
      List.drop_left, List.drop_left, Bytes.startsWhere_withReturns (by decide)]
  · simp [found]

theorem closingLength?_aligned (isName : IsName label) (bytes : Bytes) :
    AlignedIfFound bytes (closingLength? label bytes)
      (closingLength? label bytes.withReturns) := by
  rw [closingLength?_withReturns isName]
  cases found : closingLength? label bytes with
  | none => exact .none
  | some size =>
      obtain @⟨blanks, rest, blank, -⟩ := (closingLength?_eq_some_iff isName).mp found
      have noFeed : Byte.lineFeed ∉ blanks ++ label := by
        simp [(not_mem_of_isBlank blank).1, isName.not_mem_lineFeed]
      rw [← List.length_append]
      exact .some (.of_not_mem noFeed rest)

theorem closerLength?_aligned (isName : IsName label) (noReturn : Byte.carriageReturn ∉ bytes) :
    AlignedIfFound bytes (closerLength? label bytes) (closerLength? label bytes.withReturns) := by
  cases bytes with
  | nil => exact .none
  | cons byte rest =>
      have notReturn := Ne.symm (List.ne_and_not_mem_of_not_mem_cons noReturn).1
      by_cases feed : byte = Byte.lineFeed
      · subst feed
        rw [Bytes.withReturns_lineFeed, closerLength?_lineFeed, closerLength?_carriageReturn]
        exact AlignedIfFound.map (closingLength?_aligned isName rest)
          (Aligned.mk [Byte.lineFeed] rest).add
      · rw [Bytes.withReturns_cons feed, closerLength?_of_ne feed notReturn,
          closerLength?_of_ne feed notReturn]
        exact .none

end Heredoc

end PageScript
