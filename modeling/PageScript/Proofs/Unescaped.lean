import Mathlib.Algebra.Group.Nat.Even
import Mathlib.Order.Bounds.Basic
import PageScript.Proofs.EscapePieces

/-!
# Unescaped bytes

A byte is escaped if an odd number of backslashes stands right before it.  Whoever reads
from the front says the same differently: a backslash takes the byte after it, whatever that
is, so a byte is escaped if the last backslash before it is left with nothing else to take.

The two agree on all bytes.  A run of backslashes is taken two by two from its first one,
which no earlier backslash can have taken, because the byte before the run is none.
-/

namespace PageScript

namespace Bytes

/-- Number of consecutive backslashes that bytes end in. -/
def backslashes (bytes : Bytes) : Nat :=
  runLength (· == Byte.backslash) bytes.reverse

/-- A byte stands at an offset, with an even number of backslashes right before it. -/
def StandsUnescaped (byte : UInt8) (bytes : Bytes) (offset : Nat) : Prop :=
  bytes[offset]? = some byte ∧ Even (backslashes (bytes.take offset))

theorem backslashes_le (bytes : Bytes) : backslashes bytes ≤ bytes.length := by
  have short := runLength_le (· == Byte.backslash) bytes.reverse
  rwa [List.length_reverse] at short

/-- A byte in front only counts if it is a backslash and all others are. -/
theorem backslashes_cons (byte : UInt8) (rest : Bytes) :
    backslashes (byte :: rest) =
      if backslashes rest = rest.length ∧ byte = Byte.backslash then rest.length + 1
      else backslashes rest := by
  rw [backslashes, List.reverse_cons, runLength_append, List.length_reverse, ← backslashes]
  by_cases all : backslashes rest = rest.length
  · by_cases same : byte = Byte.backslash <;> simp [all, same, runLength]
  · simp [all]

/-- A backslash and the byte it takes change nothing about the number being even. -/
theorem even_backslashes_pair (kept : UInt8) (rest : Bytes) :
    Even (backslashes (Byte.backslash :: kept :: rest)) ↔ Even (backslashes rest) := by
  have short := backslashes_le rest
  by_cases all : backslashes rest = rest.length
  · by_cases same : kept = Byte.backslash
    · have one : backslashes (kept :: rest) = (kept :: rest).length := by
        simp [backslashes_cons, all, same]
      rw [backslashes_cons, if_pos ⟨one, rfl⟩, all, List.length_cons]
      simp [Nat.even_add_one]
    · have one : backslashes (kept :: rest) = rest.length := by
        simp [backslashes_cons, all, same]
      rw [backslashes_cons, one, if_neg (by simp), all]
  · have one : backslashes (kept :: rest) = backslashes rest := by
      simp [backslashes_cons, all]
    rw [backslashes_cons, one, if_neg (by simp only [List.length_cons]; omega)]

end Bytes

namespace Escape

open Bytes (StandsUnescaped backslashes)

section

variable {byte kept : UInt8} {front back rest : Bytes}

theorem isPaired_cons_iff (other : byte ≠ Byte.backslash) :
    IsPaired (byte :: rest) ↔ IsPaired rest :=
  ⟨fun paired => paired.tail other, .byte other⟩

theorem isPaired_pair_iff : IsPaired (Byte.backslash :: kept :: rest) ↔ IsPaired rest :=
  ⟨IsPaired.after_kept, .pair⟩

theorem not_isPaired_singleton : ¬ IsPaired [Byte.backslash] := by
  intro paired
  cases paired
  contradiction

/-- Behind paired text pairs are counted anew. -/
theorem IsPaired.append_iff (paired : IsPaired front) :
    IsPaired (front ++ back) ↔ IsPaired back := by
  induction paired with
  | nil => exact Iff.rfl
  | byte other _ ih => exact (isPaired_cons_iff other).trans ih
  | pair _ ih => exact isPaired_pair_iff.trans ih

theorem IsPaired.of_not_mem {text : Bytes} (plain : Byte.backslash ∉ text) : IsPaired text := by
  induction text with
  | nil => exact .nil
  | cons first text ih =>
      obtain ⟨other, later⟩ := List.ne_and_not_mem_of_not_mem_cons plain
      exact .byte other.symm (ih later)

end

/-- Every backslash has a byte to take just if an even number of them stands last. -/
theorem isPaired_iff_even : ∀ bytes : Bytes, IsPaired bytes ↔ Even (backslashes bytes)
  | [] => iff_of_true .nil Even.zero
  | [byte] => by
      by_cases same : byte = Byte.backslash
      · subst same
        exact iff_of_false not_isPaired_singleton (by decide)
      · have none : backslashes [byte] = 0 := by simp [same, backslashes, Bytes.runLength]
        rw [none]
        exact iff_of_true (.byte same .nil) Even.zero
  | first :: second :: rest => by
      by_cases same : first = Byte.backslash
      · subst same
        rw [isPaired_pair_iff, Bytes.even_backslashes_pair, isPaired_iff_even rest]
      · have others := isPaired_iff_even (second :: rest)
        rw [isPaired_cons_iff same, Bytes.backslashes_cons, if_neg (by simp [same]), others]

/-- Who takes every backslash together with the byte after it comes, at an offset, upon bytes
that are accepted. -/
def Meets (accept : Bytes → Bool) (bytes : Bytes) (offset : Nat) : Prop :=
  IsPaired (bytes.take offset) ∧ accept (bytes.drop offset)

section

variable {accept : Bytes → Bool} {front back bytes : Bytes} {offset : Nat}

theorem meets_zero_iff : Meets accept bytes 0 ↔ accept bytes :=
  and_iff_right .nil

/-- Behind paired text nothing of that text matters. -/
theorem meets_append_iff (paired : IsPaired front) :
    Meets accept (front ++ back) (front.length + offset) ↔ Meets accept back offset := by
  rw [Meets, Meets, List.take_length_add_append, paired.append_iff, ← List.drop_drop,
    List.drop_left]

theorem meets_cons_iff {byte : UInt8} {rest : Bytes} (other : byte ≠ Byte.backslash) :
    Meets accept (byte :: rest) (offset + 1) ↔ Meets accept rest offset := by
  rw [Nat.add_comm]
  exact meets_append_iff (.byte other .nil)

theorem meets_pair_iff {kept : UInt8} {rest : Bytes} :
    Meets accept (Byte.backslash :: kept :: rest) (offset + 2) ↔ Meets accept rest offset := by
  rw [Nat.add_comm]
  exact meets_append_iff (.pair .nil)

/-- The byte that a backslash takes is not come upon. -/
theorem not_meets_pair {kept : UInt8} {rest : Bytes} (inPair : offset < 2)
    (notBackslash : ¬ accept (Byte.backslash :: kept :: rest)) :
    ¬ Meets accept (Byte.backslash :: kept :: rest) offset := by
  rintro ⟨paired, accepted⟩
  match offset, inPair with
  | 0, _ => exact notBackslash accepted
  | 1, _ => exact not_isPaired_singleton paired

/-- Whatever is not come upon behind a pair is not come upon in front of it. -/
theorem not_meets_of_pair {kept : UInt8} {rest : Bytes}
    (notBackslash : ¬ accept (Byte.backslash :: kept :: rest))
    (behind : ∀ later, offset = later + 2 → ¬ Meets accept rest later) :
    ¬ Meets accept (Byte.backslash :: kept :: rest) offset := by
  by_cases inPair : offset < 2
  · exact not_meets_pair inPair notBackslash
  · obtain ⟨later, rfl⟩ := Nat.exists_eq_add_of_le' (Nat.le_of_not_lt inPair)
    exact mt meets_pair_iff.mp (behind later rfl)

end

end Escape

namespace Bytes

open Escape (IsPaired Meets)

variable {byte : UInt8} {front back bytes : Bytes} {offset : Nat}

/-- An unescaped byte is one that a reader of pairs comes upon. -/
theorem standsUnescaped_iff_meets :
    StandsUnescaped byte bytes offset ↔ Meets (startsWhere (· == byte)) bytes offset := by
  rw [StandsUnescaped, ← Escape.isPaired_iff_even, Meets, startsWhere_drop_iff, and_comm]
  simp

instance : Decidable (StandsUnescaped byte bytes offset) :=
  inferInstanceAs (Decidable (_ ∧ _))

/-- Where a byte first stands unescaped. -/
def FirstUnescaped (byte : UInt8) (bytes : Bytes) (offset : Nat) : Prop :=
  IsLeast {offset | StandsUnescaped byte bytes offset} offset

theorem FirstUnescaped.unique {other : Nat} (first : FirstUnescaped byte bytes offset)
    (again : FirstUnescaped byte bytes other) : offset = other :=
  IsLeast.unique first again

theorem firstUnescaped_iff : FirstUnescaped byte bytes offset ↔
    StandsUnescaped byte bytes offset ∧
      ∀ before < offset, ¬ StandsUnescaped byte bytes before := by
  refine and_congr_right fun _ =>
    ⟨fun least before earlier stands => ?_, fun none other stands => ?_⟩
  · exact absurd (least stands) (Nat.not_le_of_lt earlier)
  · exact Nat.le_of_not_lt fun earlier => none other earlier stands

instance : Decidable (FirstUnescaped byte bytes offset) :=
  decidable_of_iff _ firstUnescaped_iff.symm

/-- What is first behind paired text, and not in it, is first. -/
theorem FirstUnescaped.append (paired : IsPaired front)
    (none : ∀ before < front.length, ¬ StandsUnescaped byte (front ++ back) before)
    (first : FirstUnescaped byte back offset) :
    FirstUnescaped byte (front ++ back) (front.length + offset) := by
  have behind {other : Nat} : StandsUnescaped byte (front ++ back) (front.length + other) ↔
      StandsUnescaped byte back other := by
    rw [standsUnescaped_iff_meets, standsUnescaped_iff_meets, Escape.meets_append_iff paired]
  refine ⟨behind.mpr first.1, fun other stands => ?_⟩
  have notInside : front.length ≤ other := by
    by_contra inside
    exact none other (Nat.lt_of_not_le inside) stands
  obtain ⟨later, rfl⟩ := Nat.exists_eq_add_of_le notInside
  exact Nat.add_le_add_left (first.2 (behind.mp stands)) _

end Bytes

end PageScript
