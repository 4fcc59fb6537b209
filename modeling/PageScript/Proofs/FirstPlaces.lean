import PageScript.Proofs.Fit

/-!
# First places

Three look aheads search: text goes on up to an open tag, a line comment up to the end of
its line, and a block comment up to its closer.  Each is described by what it searches for,
and is shown to stop at the first place where that stands.
-/

namespace PageScript

namespace Bytes

/-- Number of bytes before the first place at which the bytes left have a property, or of
all bytes if there is no such place. -/
structure IsFirstPlace (property : Bytes → Prop) (bytes : Bytes) (size : Nat) : Prop where
  size_le : size ≤ bytes.length
  reached : size < bytes.length → property (bytes.drop size)
  least : ∀ offset < size, ¬ property (bytes.drop offset)

namespace IsFirstPlace

variable {property : Bytes → Prop} {byte : UInt8} {bytes rest : Bytes} {size : Nat}

theorem nil : IsFirstPlace property [] 0 :=
  ⟨Nat.le_refl _, by simp, by simp⟩

theorem here (holds : property bytes) : IsFirstPlace property bytes 0 :=
  ⟨Nat.zero_le _, fun _ => holds, by simp⟩

theorem of_nowhere (nowhere : ∀ place, ¬ property (bytes.drop place)) :
    IsFirstPlace property bytes bytes.length :=
  ⟨Nat.le_refl _, fun inside => absurd inside (Nat.lt_irrefl _), fun place _ => nowhere place⟩

/-- The first place in the rest is the first one if the front is none. -/
theorem cons (goesOn : ¬ property (byte :: rest)) (later : IsFirstPlace property rest size) :
    IsFirstPlace property (byte :: rest) (size + 1) where
  size_le := Nat.succ_le_succ later.size_le
  reached inside := later.reached (Nat.lt_of_succ_lt_succ inside)
  least offset before := by
    cases offset with
    | zero => exact goesOn
    | succ offset => exact later.least offset (Nat.lt_of_succ_lt_succ before)

end IsFirstPlace

variable {pattern bytes : Bytes}

theorem offsetOf?_isFirstPlace (nonempty : pattern ≠ []) (bytes : Bytes) :
    IsFirstPlace (pattern <+: ·) bytes ((offsetOf? pattern bytes).getD bytes.length) := by
  induction bytes with
  | nil => simpa [offsetOf?, nonempty] using IsFirstPlace.nil
  | cons byte rest ih =>
      rw [offsetOf?]
      split
      · next found => exact .here (List.isPrefixOf_iff_prefix.mp found)
      · next missing =>
          have later : IsFirstPlace (pattern <+: ·) (byte :: rest) _ :=
            ih.cons (mt List.isPrefixOf_iff_prefix.mpr missing)
          cases found : offsetOf? pattern rest <;> simpa [found] using later

/-- A pattern stands where it is found. -/
theorem isPrefix_of_offsetOf? {offset : Nat} (found : offsetOf? pattern bytes = some offset) :
    pattern <+: bytes.drop offset := by
  obtain ⟨front, back, rfl, rfl⟩ := exists_split_of_offsetOf? found
  rw [List.drop_left]
  exact List.prefix_append _ _

/-- A pattern that is not found stands nowhere. -/
theorem not_isPrefix_of_offsetOf? (nonempty : pattern ≠ [])
    (missing : offsetOf? pattern bytes = none) (offset : Nat) :
    ¬ pattern <+: bytes.drop offset := by
  have first := offsetOf?_isFirstPlace nonempty bytes
  rw [missing, Option.getD_none] at first
  by_cases inside : offset < bytes.length
  · exact first.least offset inside
  · rw [List.drop_eq_nil_of_le (Nat.not_lt.mp inside), List.prefix_nil]
    exact nonempty

end Bytes

namespace Lexeme

open Bytes (IsFirstPlace)

/-! ### Open tags -/

/-- An open tag stands at the front: the short one, or the long one in letters of either
case, with whitespace or the end of the page behind it. -/
inductive BeginsTag : Bytes → Prop where
  | short {rest : Bytes} : BeginsTag (Bytes.ascii "<?=" ++ rest)
  | long {letters rest : Bytes} :
      letters.map Byte.toLower = Bytes.ascii "<?php" →
      rest = [] ∨ rest.startsWhere Byte.isSpace → BeginsTag (letters ++ rest)

theorem openTag?_isSome_iff {bytes : Bytes} : (openTag? bytes).isSome ↔ BeginsTag bytes := by
  constructor
  · intro found
    obtain ⟨tag, found⟩ := Option.isSome_iff_exists.mp found
    cases openTag?_isOpenTag found with
    | echo => exact .short
    | atEnd long => simpa using BeginsTag.long long (.inl rfl)
    | broken long => exact .long long (.inr rfl)
    | spaced long space => exact .long long (.inr space)
  · intro begins
    cases begins with
    | short => rfl
    | @long letters rest long ends =>
        have long : letters.map Byte.toLower = openTagText := long
        have five := length_of_openTagText long
        have taken : (letters ++ rest).take 5 = letters := List.take_left' five
        have left : (letters ++ rest).drop 5 = rest := List.drop_left' five
        rw [openTag?, taken, left, if_pos long]
        rcases ends with rfl | space
        · split <;> rfl
        · obtain ⟨following, rest, rfl, space⟩ := Bytes.exists_cons_of_startsWhere space
          split
          · rfl
          · simp only
            split <;> rfl

theorem tagOpener_ne_nil : tagOpener ≠ [] :=
  List.cons_ne_nil _ _

theorem BeginsTag.opener_isPrefix {bytes : Bytes} (begins : BeginsTag bytes) :
    tagOpener <+: bytes := by
  obtain ⟨tag, found⟩ := Option.isSome_iff_exists.mp (openTag?_isSome_iff.mpr begins)
  exact (openTag?_isOpenTag found).opener_isPrefix

/-- The second of the two bytes that open a tag opens none. -/
theorem not_opener_behind_opener {bytes : Bytes} (opens : tagOpener <+: bytes) :
    ¬ tagOpener <+: bytes.drop 1 := by
  obtain ⟨rest, rfl⟩ := opens
  intro second
  have same : Byte.less = Byte.question := (List.cons_prefix_cons.mp second).1
  contradiction

/-- No open tag stands before a place. -/
def NoTagBefore (bytes : Bytes) (place : Nat) : Prop :=
  ∀ earlier < place, ¬ BeginsTag (bytes.drop earlier)

namespace NoTagBefore

variable {bytes : Bytes} {place other skipped : Nat} {tag : Lexeme}

theorem zero (bytes : Bytes) : NoTagBefore bytes 0 :=
  fun _ before => absurd before (Nat.not_lt_zero _)

/-- A tag that is there stands behind the place, at an opener that is found from there. -/
theorem exists_opener (before : NoTagBefore bytes place) (begins : BeginsTag (bytes.drop other)) :
    ∃ offset, other = place + offset ∧ tagOpener <+: (bytes.drop place).drop offset := by
  have behind : place ≤ other := Nat.not_lt.mp fun earlier => before other earlier begins
  obtain ⟨offset, rfl⟩ := Nat.exists_eq_add_of_le behind
  rw [← List.drop_drop] at begins
  exact ⟨offset, rfl, begins.opener_isPrefix⟩

/-- A search for the two bytes that open a tag passes over no tag. -/
theorem skip (before : NoTagBefore bytes place)
    (found : Bytes.offsetOf? tagOpener (bytes.drop place) = some skipped) :
    NoTagBefore bytes (place + skipped) := by
  have first := Bytes.offsetOf?_isFirstPlace tagOpener_ne_nil (bytes.drop place)
  rw [found, Option.getD_some] at first
  intro earlier inside begins
  obtain ⟨offset, rfl, opens⟩ := before.exists_opener begins
  exact first.least offset (Nat.lt_of_add_lt_add_left inside) opens

/-- Two bytes that open no tag can be left behind: a tag begins at neither of them. -/
theorem restart (before : NoTagBefore bytes place) (opens : tagOpener <+: bytes.drop place)
    (noTag : openTag? (bytes.drop place) = none) : NoTagBefore bytes (place + 2) := by
  intro earlier inside begins
  obtain ⟨offset, rfl, opensToo⟩ := before.exists_opener begins
  match offset, Nat.lt_of_add_lt_add_left inside with
  | 0, _ =>
      have isTag := openTag?_isSome_iff.mpr begins
      rw [Nat.add_zero, noTag] at isTag
      contradiction
  | 1, _ => exact not_opener_behind_opener opens opensToo

/-- The search goes on behind the two bytes that it found, if they open no tag. -/
theorem turn (before : NoTagBefore bytes place)
    (found : Bytes.offsetOf? tagOpener (bytes.drop place) = some skipped)
    (noTag : openTag? (bytes.drop (place + skipped)) = none) :
    NoTagBefore bytes (place + skipped + 2) := by
  refine (before.skip found).restart ?_ noTag
  rw [← List.drop_drop]
  exact Bytes.isPrefix_of_offsetOf? found

/-- If the two bytes are not found again, there is no tag at all. -/
theorem nowhere (before : NoTagBefore bytes place)
    (missing : Bytes.offsetOf? tagOpener (bytes.drop place) = none) (other : Nat) :
    ¬ BeginsTag (bytes.drop other) := by
  intro begins
  obtain ⟨offset, -, opens⟩ := before.exists_opener begins
  exact Bytes.not_isPrefix_of_offsetOf? tagOpener_ne_nil missing offset opens

/-- If a tag stands at a place, it is the first one. -/
theorem isFirstPlace (before : NoTagBefore bytes place)
    (found : openTag? (bytes.drop place) = some tag) : IsFirstPlace BeginsTag bytes place where
  size_le := by
    have fits := openTag?_fits found
    have positive := Nat.lt_of_lt_of_le fits.positive fits.size_le
    rw [List.length_drop] at positive
    omega
  reached _ := openTag?_isSome_iff.mp (by simp [found])
  least := before

end NoTagBefore

variable {bytes : Bytes} {start offset : Nat} {tag : Lexeme}

/-- The search takes every place up to where it goes on for one without a tag, so what it
finds is the first tag. -/
theorem firstTag?_eq_some (before : NoTagBefore bytes start)
    (search : firstTag? bytes start = some (offset, tag)) :
    IsFirstPlace BeginsTag bytes offset ∧ openTag? (bytes.drop offset) = some tag := by
  fun_induction firstTag? bytes start with
  | case1 => contradiction
  | case2 start skipped found tag isTag =>
      cases search
      exact ⟨(before.skip found).isFirstPlace isTag, isTag⟩
  | case3 start skipped found noTag ih =>
      exact ih (before.turn found noTag) search

/-- A search that finds none has left no place out. -/
theorem firstTag?_eq_none (before : NoTagBefore bytes start)
    (search : firstTag? bytes start = none) (place : Nat) : ¬ BeginsTag (bytes.drop place) := by
  fun_induction firstTag? bytes start with
  | case1 start missing => exact before.nowhere missing place
  | case2 => contradiction
  | case3 start skipped found noTag ih =>
      exact ih (before.turn found noTag) search

-- The search goes on right behind an opener that opens nothing.
example : firstTag? (Bytes.ascii "<?<?= 1 ?>") 0 = some (2, ⟨.echoTag, 3⟩) := by
  decide +kernel

/-! ### Line comments -/

/-- A line comment ends here: at a line feed, or at a close tag. -/
def EndsLineComment (bytes : Bytes) : Prop :=
  Bytes.ascii "\n" <+: bytes ∨ Bytes.ascii "?>" <+: bytes

theorem endsLineComment_cons_iff {byte : UInt8} {rest : Bytes} :
    EndsLineComment (byte :: rest) ↔
      byte = Byte.lineFeed ∨ byte = Byte.question ∧ rest.startsWhere (· == Byte.greater) := by
  have feed : Bytes.ascii "\n" = [Byte.lineFeed] := rfl
  have closer : Bytes.ascii "?>" = [Byte.question, Byte.greater] := rfl
  have second : [Byte.greater] <+: rest ↔ rest.startsWhere (· == Byte.greater) := by
    cases rest with
    | nil => simp
    | cons second rest => simp [@eq_comm _ second]
  simp only [EndsLineComment, feed, closer, List.cons_prefix_cons, List.nil_prefix, and_true,
    second, @eq_comm _ byte]

theorem lineCommentLength_isFirstPlace (bytes : Bytes) :
    IsFirstPlace EndsLineComment bytes (lineCommentLength bytes) := by
  induction bytes with
  | nil => exact .nil
  | cons byte rest ih =>
      rw [lineCommentLength]
      split
      · next feed => exact .here (endsLineComment_cons_iff.mpr (.inl feed))
      · next noFeed =>
          simp only [Bool.and_eq_true, decide_eq_true_eq]
          split
          · next closes => exact .here (endsLineComment_cons_iff.mpr (.inr closes))
          · next goesOn =>
              refine ih.cons (mt endsLineComment_cons_iff.mp ?_)
              exact not_or_intro noFeed goesOn

/-! ### Block comments -/

/-- The closer of a block comment stands at `place`, behind the two bytes of the opener, and
at no earlier place behind them. -/
structure ClosesBlockAt (bytes : Bytes) (place : Nat) : Prop where
  behindOpener : 2 ≤ place
  closer : Bytes.ascii "*/" <+: bytes.drop place
  least : ∀ earlier, 2 ≤ earlier → earlier < place → ¬ Bytes.ascii "*/" <+: bytes.drop earlier

/-- No closer stands behind the opener. -/
def NeverCloses (bytes : Bytes) : Prop :=
  ∀ place, 2 ≤ place → ¬ Bytes.ascii "*/" <+: bytes.drop place

theorem blockCloser_ne_nil : blockCloser ≠ [] :=
  List.cons_ne_nil _ _

/-- A block comment goes on up to and with its closer. -/
theorem closesBlockAt_of_blockCommentLength? {bytes : Bytes} {size : Nat}
    (found : blockCommentLength? bytes = some size) :
    ∃ place, ClosesBlockAt bytes place ∧ size = place + 2 := by
  obtain ⟨offset, inRest, rfl⟩ := Option.map_eq_some_iff.mp found
  have first := Bytes.offsetOf?_isFirstPlace blockCloser_ne_nil (bytes.drop 2)
  rw [inRest, Option.getD_some] at first
  refine ⟨offset + 2, ⟨Nat.le_add_left _ _, ?_, ?_⟩, rfl⟩
  · rw [Nat.add_comm, ← List.drop_drop]
    exact Bytes.isPrefix_of_offsetOf? inRest
  · intro earlier behind before
    obtain ⟨offset, rfl⟩ := Nat.exists_eq_add_of_le behind
    rw [← List.drop_drop]
    exact first.least offset (by omega)

theorem neverCloses_of_blockCommentLength? {bytes : Bytes}
    (missing : blockCommentLength? bytes = none) : NeverCloses bytes := by
  intro place behind
  obtain ⟨offset, rfl⟩ := Nat.exists_eq_add_of_le behind
  rw [← List.drop_drop]
  exact Bytes.not_isPrefix_of_offsetOf? blockCloser_ne_nil
    (Option.map_eq_none_iff.mp missing) offset

/-- A comment that documents what follows begins with two stars and whitespace. -/
def StartsDoc (bytes : Bytes) : Prop :=
  ∃ space rest, Byte.isSpace space ∧ bytes = Bytes.ascii "/**" ++ space :: rest

theorem blockCommentKind_eq (bytes : Bytes) :
    blockCommentKind bytes = .comment ∨ blockCommentKind bytes = .docComment := by
  rw [blockCommentKind]
  split
  · split <;> simp
  · exact .inl rfl

theorem blockCommentKind_eq_docComment_iff {bytes : Bytes} (opens : Bytes.ascii "/*" <+: bytes) :
    blockCommentKind bytes = .docComment ↔ StartsDoc bytes := by
  obtain ⟨rest, rfl⟩ := opens
  have left : (Bytes.ascii "/*" ++ rest).drop 2 = rest := rfl
  rw [blockCommentKind, left]
  constructor
  · intro kind
    split at kind
    · next second following rest =>
        split at kind
        · next doc =>
            simp only [Bool.and_eq_true, decide_eq_true_eq] at doc
            obtain ⟨rfl, space⟩ := doc
            exact ⟨following, rest, space, rfl⟩
        · contradiction
    · contradiction
  · rintro ⟨space, after, isSpace, split⟩
    obtain rfl : rest = Byte.star :: space :: after := List.append_cancel_left split
    simp [isSpace]

/-- The kind of a comment is seen from its first four bytes. -/
theorem blockCommentKind_append {text : Bytes} (four : 4 ≤ text.length) (after : Bytes) :
    blockCommentKind (text ++ after) = blockCommentKind text := by
  match text, four with
  | _ :: _ :: _ :: _ :: _, _ => rfl

end Lexeme

end PageScript
