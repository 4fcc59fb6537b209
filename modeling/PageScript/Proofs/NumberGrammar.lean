import PageScript.Proofs.Fit

/-!
# The grammar of numbers

A number is a radix marker with digits of that radix, or it is decimal: a whole part, a
fraction and an exponent, not all of which need to be there.  `Number.IsNumber` says so
without saying how a number is read.

The scanner takes one part after the other, each as far as it goes, and never goes back.
So it could miss a longer number only where a part, taken shorter, lets a later part
begin.  That never happens: a fraction begins with a dot and an exponent with a letter,
and neither is among the digits and underscores that the part before it is made of.
-/

namespace PageScript

namespace Byte

/-- The letters that are lowered to a lower-case letter are the letter and its upper-case
form. -/
theorem toLower_eq_iff {byte letter : UInt8} (lower : isLower letter) :
    toLower byte = letter ↔ byte = letter ∨ byte = toUpper letter := by
  rw [toUpper, if_pos lower, toLower]
  simp only [isLower, isUpper, Bool.and_eq_true, decide_eq_true_eq] at lower ⊢
  grind

/-- A decimal digit is not a byte that is none. -/
theorem ne_of_isDigit {byte other : UInt8} (digit : isDigit byte) (noDigit : ¬ isDigit other) :
    byte ≠ other := by
  rintro rfl
  exact noDigit digit

end Byte

namespace Bytes

/-- The longest front of some bytes that has a property. -/
structure IsLongestFront (property : Bytes → Prop) (front bytes : Bytes) : Prop where
  isPrefix : front <+: bytes
  holds : property front
  longest : ∀ other, other <+: bytes → property other → other.length ≤ front.length

end Bytes

namespace Number

open Lexeme (StartsNumber decimalNumber digitRun exponentLength? fractionLength number
  radixDigit? radixLength? signLength)

/-- Digits of a radix and the underscores that may separate them. -/
def IsRun (isDigit : UInt8 → Bool) (run : Bytes) : Prop :=
  ∀ byte ∈ run, isDigit byte || byte == Byte.underscore

/-- A run that a digit opens. -/
structure IsDigits (isDigit : UInt8 → Bool) (digits : Bytes) : Prop where
  starts : digits.startsWhere isDigit
  members : IsRun isDigit digits

/-- The letter of a radix marker, with the digits of the radix. -/
inductive IsMarker (letter : UInt8) : (UInt8 → Bool) → Prop where
  | hexadecimal :
      letter = Byte.ofChar 'x' ∨ letter = Byte.ofChar 'X' → IsMarker letter Byte.isHexDigit
  | binary :
      letter = Byte.ofChar 'b' ∨ letter = Byte.ofChar 'B' → IsMarker letter Byte.isBinaryDigit
  | octal :
      letter = Byte.ofChar 'o' ∨ letter = Byte.ofChar 'O' → IsMarker letter Byte.isOctalDigit

/-- A fraction: the dot and a run of digits, which may be empty. -/
def IsFraction (fraction : Bytes) : Prop :=
  ∃ run, fraction = Byte.dot :: run ∧ IsRun Byte.isDigit run

/-- The sign of an exponent, if there is one. -/
def IsSign (sign : Bytes) : Prop :=
  sign = [] ∨ sign = [Byte.plus] ∨ sign = [Byte.minus]

/-- An exponent: the letter, a sign and digits. -/
inductive IsExponent : Bytes → Prop where
  | mk {letter : UInt8} {sign digits : Bytes} :
      letter = Byte.ofChar 'e' ∨ letter = Byte.ofChar 'E' → IsSign sign →
      IsDigits Byte.isDigit digits → IsExponent (letter :: (sign ++ digits))

/-- The parts of a decimal number.  The fraction and the exponent may be missing, and so
may the whole part if a digit follows the dot. -/
structure IsDecimal (whole fraction exponent : Bytes) : Prop where
  whole : IsDigits Byte.isDigit whole ∨
    whole = [] ∧ ∃ digits, fraction = Byte.dot :: digits ∧ IsDigits Byte.isDigit digits
  fraction : fraction = [] ∨ IsFraction fraction
  exponent : exponent = [] ∨ IsExponent exponent

/-- How a number is written, and the kind that a token of it has. -/
inductive IsNumber : Bytes → Kind → Prop where
  | radix {letter : UInt8} {isDigit : UInt8 → Bool} {digits : Bytes} :
      IsMarker letter isDigit → IsDigits isDigit digits →
      IsNumber (Byte.zero :: letter :: digits) .integer
  | integer {whole : Bytes} : IsDecimal whole [] [] → IsNumber whole .integer
  /-- A number with a fraction dot or an exponent. -/
  | decimal {whole fraction exponent : Bytes} :
      IsDecimal whole fraction exponent → fraction ≠ [] ∨ exponent ≠ [] →
      IsNumber (whole ++ (fraction ++ exponent)) .decimal

section

variable {isDigit : UInt8 → Bool} {run digits fraction exponent rest bytes : Bytes}

/-- A run goes on behind a run. -/
theorem IsRun.digitRun_append (isRun : IsRun isDigit run) (rest : Bytes) :
    digitRun isDigit (run ++ rest) = run.length + digitRun isDigit rest := by
  have whole : digitRun isDigit (run ++ []) = run.length :=
    Bytes.runLength_append_of_stops isRun (by simp)
  rw [List.append_nil, digitRun] at whole
  rw [digitRun, Bytes.runLength_append, if_pos whole, digitRun]

theorem digitRun_of_not {byte : UInt8} (other : ¬ (isDigit byte || byte == Byte.underscore))
    (rest : Bytes) : digitRun isDigit (byte :: rest) = 0 := by
  rw [digitRun, Bytes.runLength, if_neg other]

theorem exists_digitRun (isDigit : UInt8 → Bool) (bytes : Bytes) :
    ∃ run rest, bytes = run ++ rest ∧ IsRun isDigit run ∧ digitRun isDigit bytes = run.length ∧
      ¬ rest.startsWhere fun byte => isDigit byte || byte == Byte.underscore := by
  obtain ⟨run, rest, split, members, stops, length⟩ :=
    Bytes.exists_run (fun byte => isDigit byte || byte == Byte.underscore) bytes
  exact ⟨run, rest, split, members, length, stops⟩

theorem IsDigits.ne_nil (isDigits : IsDigits isDigit digits) : digits ≠ [] := by
  rintro rfl
  exact absurd isDigits.starts (by simp)

theorem IsDigits.startsWhere_append (isDigits : IsDigits isDigit digits) (rest : Bytes) :
    (digits ++ rest).startsWhere isDigit := by
  rw [Bytes.startsWhere_append isDigits.ne_nil]
  exact isDigits.starts

/-- Behind a digit that is there, digits split off. -/
theorem exists_digits (starts : bytes.startsWhere isDigit) :
    ∃ digits rest, bytes = digits ++ rest ∧ IsDigits isDigit digits ∧
      digitRun isDigit bytes = digits.length := by
  obtain ⟨run, rest, rfl, isRun, length, stops⟩ := exists_digitRun isDigit bytes
  have nonempty : run ≠ [] := by
    rintro rfl
    obtain ⟨byte, rest, rfl, digit⟩ := Bytes.exists_cons_of_startsWhere starts
    simp [digit] at stops
  rw [Bytes.startsWhere_append nonempty] at starts
  exact ⟨run, rest, rfl, ⟨starts, isRun⟩, length⟩

/-- A marker letter is recognised in either case. -/
theorem radixDigit?_eq_some_iff {letter : UInt8} :
    radixDigit? letter = some isDigit ↔ IsMarker letter isDigit := by
  have lowered (lower upper : Char) (isLower : Byte.isLower (Byte.ofChar lower))
      (same : Byte.toUpper (Byte.ofChar lower) = Byte.ofChar upper) :
      Byte.toLower letter = Byte.ofChar lower ↔
        letter = Byte.ofChar lower ∨ letter = Byte.ofChar upper := by
    rw [Byte.toLower_eq_iff isLower, same]
  have hexadecimal := lowered 'x' 'X' rfl rfl
  have binary := lowered 'b' 'B' rfl rfl
  have octal := lowered 'o' 'O' rfl rfl
  constructor
  · intro found
    unfold radixDigit? at found
    simp only at found
    split at found
    · next same =>
        cases found
        exact .hexadecimal (hexadecimal.mp same)
    split at found
    · next same =>
        cases found
        exact .binary (binary.mp same)
    split at found
    · next same =>
        cases found
        exact .octal (octal.mp same)
    · contradiction
  · intro marker
    cases marker with
    | hexadecimal same => rcases same with rfl | rfl <;> rfl
    | binary same => rcases same with rfl | rfl <;> rfl
    | octal same => rcases same with rfl | rfl <;> rfl

/-- A marker letter is neither a digit, a dot nor the letter of an exponent. -/
theorem IsMarker.ne {letter : UInt8} (marker : IsMarker letter isDigit) :
    ¬ (Byte.isDigit letter || letter == Byte.underscore) ∧ letter ≠ Byte.dot ∧
      letter ≠ Byte.ofChar 'e' ∧ letter ≠ Byte.ofChar 'E' := by
  cases marker with
  | hexadecimal same => rcases same with rfl | rfl <;> decide
  | binary same => rcases same with rfl | rfl <;> decide
  | octal same => rcases same with rfl | rfl <;> decide

/-! ### What a part begins with -/

theorem IsFraction.digitRun_append (isFraction : IsFraction fraction) (rest : Bytes) :
    digitRun Byte.isDigit (fraction ++ rest) = 0 := by
  obtain ⟨run, rfl, -⟩ := isFraction
  exact digitRun_of_not (by decide) _

theorem IsExponent.digitRun_append (isExponent : IsExponent exponent) (rest : Bytes) :
    digitRun Byte.isDigit (exponent ++ rest) = 0 := by
  obtain ⟨letter, -, -⟩ := isExponent
  rcases letter with rfl | rfl <;> exact digitRun_of_not (by decide) _

/-- No part of a decimal number goes on with the digits before it. -/
theorem IsDecimal.digitRun_append {whole : Bytes} (shape : IsDecimal whole fraction exponent)
    (present : fraction ≠ [] ∨ exponent ≠ []) (rest : Bytes) :
    digitRun Byte.isDigit (fraction ++ (exponent ++ rest)) = 0 := by
  rcases shape.fraction with rfl | isFraction
  · rcases shape.exponent with rfl | isExponent
    · simp at present
    · exact isExponent.digitRun_append rest
  · exact isFraction.digitRun_append _

theorem IsExponent.fractionLength_append (isExponent : IsExponent exponent) (rest : Bytes) :
    fractionLength (exponent ++ rest) = 0 := by
  obtain ⟨letter, -, -⟩ := isExponent
  rcases letter with rfl | rfl <;> rfl

/-! ### What is read of a part -/

theorem IsFraction.fractionLength_append (isFraction : IsFraction fraction) (rest : Bytes) :
    fractionLength (fraction ++ rest) = fraction.length + digitRun Byte.isDigit rest := by
  obtain ⟨run, rfl, isRun⟩ := isFraction
  rw [List.cons_append, fractionLength, if_pos rfl, isRun.digitRun_append, List.length_cons]
  omega

theorem IsSign.signLength_append {sign : Bytes} (isSign : IsSign sign)
    (isDigits : IsDigits Byte.isDigit digits) (rest : Bytes) :
    signLength (sign ++ (digits ++ rest)) = sign.length := by
  rcases isSign with rfl | rfl | rfl
  · obtain ⟨byte, later, split, digit⟩ :=
      Bytes.exists_cons_of_startsWhere (isDigits.startsWhere_append rest)
    have notPlus : byte ≠ Byte.plus := Byte.ne_of_isDigit digit (by decide)
    have notMinus : byte ≠ Byte.minus := Byte.ne_of_isDigit digit (by decide)
    simp [signLength, split, notPlus, notMinus]
  · rfl
  · rfl

theorem IsExponent.exponentLength?_append (isExponent : IsExponent exponent) (rest : Bytes) :
    exponentLength? (exponent ++ rest) =
      some (exponent.length + digitRun Byte.isDigit rest) := by
  obtain @⟨letter, sign, digits, same, isSign, isDigits⟩ := isExponent
  have lowered : Byte.toLower letter = Byte.ofChar 'e' := by
    rcases same with rfl | rfl <;> rfl
  have signed := isSign.signLength_append isDigits rest
  have starts := isDigits.startsWhere_append rest
  rw [List.cons_append, List.append_assoc, exponentLength?]
  simp only [signed, List.drop_left, lowered, starts, isDigits.members.digitRun_append,
    decide_true, Bool.and_self, if_true, List.length_cons, List.length_append]
  exact congrArg some (by omega)

theorem exists_fraction (bytes : Bytes) : ∃ fraction rest, bytes = fraction ++ rest ∧
    (fraction = [] ∨ IsFraction fraction) ∧ fractionLength bytes = fraction.length := by
  cases bytes with
  | nil => exact ⟨[], [], rfl, .inl rfl, rfl⟩
  | cons byte rest =>
      rw [fractionLength]
      split
      · next dot =>
          subst dot
          obtain ⟨run, rest, rfl, isRun, length, -⟩ := exists_digitRun Byte.isDigit rest
          refine ⟨Byte.dot :: run, rest, rfl, .inr ⟨run, rfl, isRun⟩, ?_⟩
          rw [length, List.length_cons, Nat.add_comm]
      · exact ⟨[], byte :: rest, rfl, .inl rfl, rfl⟩

theorem exists_sign (bytes : Bytes) : ∃ sign rest, bytes = sign ++ rest ∧ IsSign sign ∧
    signLength bytes = sign.length := by
  rw [signLength]
  split
  · next starts =>
      obtain ⟨byte, rest, rfl, same⟩ := Bytes.exists_cons_of_startsWhere starts
      simp only [Bool.or_eq_true, beq_iff_eq] at same
      rcases same with rfl | rfl
      · exact ⟨[Byte.plus], rest, rfl, .inr (.inl rfl), rfl⟩
      · exact ⟨[Byte.minus], rest, rfl, .inr (.inr rfl), rfl⟩
  · exact ⟨[], bytes, rfl, .inl rfl, rfl⟩

theorem exists_exponent {size : Nat} (found : exponentLength? bytes = some size) :
    ∃ exponent rest, bytes = exponent ++ rest ∧ IsExponent exponent ∧
      size = exponent.length := by
  cases bytes with
  | nil => contradiction
  | cons letter rest =>
      simp only [exponentLength?, Option.ite_none_right_eq_some, Option.some.injEq,
        Bool.and_eq_true, decide_eq_true_eq] at found
      obtain ⟨⟨lowered, starts⟩, rfl⟩ := found
      have same : letter = Byte.ofChar 'e' ∨ letter = Byte.ofChar 'E' :=
        (Byte.toLower_eq_iff rfl).mp lowered
      obtain ⟨sign, behind, rfl, isSign, signed⟩ := exists_sign rest
      rw [signed, List.drop_left] at starts ⊢
      obtain ⟨digits, behind, rfl, isDigits, length⟩ := exists_digits starts
      refine ⟨letter :: (sign ++ digits), behind, by simp, .mk same isSign isDigits, ?_⟩
      simp only [length, List.length_cons, List.length_append]
      omega

/-! ### What is read is a number -/

theorem exists_radix {size : Nat} (found : radixLength? bytes = some size) :
    ∃ letter isDigit digits rest, bytes = Byte.zero :: letter :: (digits ++ rest) ∧
      IsMarker letter isDigit ∧ IsDigits isDigit digits ∧ size = digits.length + 2 := by
  unfold radixLength? at found
  split at found
  · next first letter behind =>
      split at found
      · next zero =>
          subst zero
          split at found
          · contradiction
          · next isDigit marked =>
              obtain ⟨starts, same⟩ := Option.ite_none_right_eq_some.mp found
              obtain ⟨digits, rest, rfl, isDigits, length⟩ := exists_digits starts
              refine ⟨letter, isDigit, digits, rest, rfl, radixDigit?_eq_some_iff.mp marked,
                isDigits, ?_⟩
              rw [← Option.some.inj same, length, Nat.add_comm]
      · contradiction
  · contradiction

/-- What may open a number opens a whole part, or a fraction with a digit behind its
dot. -/
theorem exists_isDecimal (starts : StartsNumber bytes) :
    ∃ whole fraction rest, bytes = whole ++ (fraction ++ rest) ∧
      IsDecimal whole fraction [] ∧ digitRun Byte.isDigit bytes = whole.length ∧
      fractionLength (fraction ++ rest) = fraction.length := by
  rcases starts with digit | ⟨behind, rfl, digit⟩
  · obtain ⟨whole, behind, rfl, isDigits, length⟩ := exists_digits digit
    obtain ⟨fraction, rest, rfl, isFraction, fractionLength⟩ := exists_fraction behind
    exact ⟨whole, fraction, rest, rfl, ⟨.inl isDigits, isFraction, .inl rfl⟩, length,
      fractionLength⟩
  · obtain ⟨digits, rest, rfl, isDigits, length⟩ := exists_digits digit
    refine ⟨[], Byte.dot :: digits, rest, rfl, ?_, rfl, ?_⟩
    · exact ⟨.inr ⟨rfl, digits, rfl, isDigits⟩, .inr ⟨digits, rfl, isDigits.members⟩, .inl rfl⟩
    · rw [List.cons_append, fractionLength, if_pos rfl, length, List.length_cons, Nat.add_comm]

theorem decimalNumber_isNumber (starts : StartsNumber bytes) :
    ∃ text rest, bytes = text ++ rest ∧ IsNumber text (decimalNumber bytes).kind ∧
      (decimalNumber bytes).size = text.length := by
  obtain ⟨whole, fraction, behind, rfl, shape, wholeLength, length⟩ := exists_isDecimal starts
  rw [decimalNumber]
  simp only [wholeLength, List.drop_left, length, ← List.drop_drop]
  split
  · next size found =>
      obtain ⟨exponent, rest, rfl, isExponent, rfl⟩ := exists_exponent found
      have present : exponent ≠ [] := by
        obtain ⟨-, -, -⟩ := isExponent
        exact List.cons_ne_nil _ _
      refine ⟨whole ++ (fraction ++ exponent), rest, by simp,
        .decimal { shape with exponent := .inr isExponent } (.inr present), ?_⟩
      simp [Nat.add_assoc]
  · cases fraction with
    | nil => exact ⟨whole, behind, rfl, .integer shape, rfl⟩
    | cons dot run =>
        exact ⟨whole ++ (dot :: run ++ []), behind, by simp, .decimal shape (.inl (by simp)),
          by simp⟩

theorem number_isNumber (starts : StartsNumber bytes) :
    ∃ text rest, bytes = text ++ rest ∧ IsNumber text (number bytes).kind ∧
      (number bytes).size = text.length := by
  rw [number]
  split
  · next size found =>
      obtain ⟨letter, isDigit, digits, rest, rfl, marker, isDigits, rfl⟩ := exists_radix found
      exact ⟨Byte.zero :: letter :: digits, rest, rfl, .radix marker isDigits, rfl⟩
  · exact decimalNumber_isNumber starts

/-! ### No number is longer -/

/-- A lexeme takes no less than some text, and if it takes no more it has the same kind. -/
structure Reaches (text : Bytes) (kind : Kind) (found : Lexeme) : Prop where
  length_le : text.length ≤ found.size
  kind_eq : found.size = text.length → found.kind = kind

section

variable {whole : Bytes}

theorem IsDecimal.isRun (shape : IsDecimal whole fraction exponent) :
    IsRun Byte.isDigit whole := by
  rcases shape.whole with isDigits | ⟨rfl, -⟩
  · exact isDigits.members
  · simp [IsRun]

theorem IsDecimal.digitRun_eq (shape : IsDecimal whole fraction exponent)
    (present : fraction ≠ [] ∨ exponent ≠ []) (rest : Bytes) :
    digitRun Byte.isDigit (whole ++ (fraction ++ (exponent ++ rest))) = whole.length := by
  rw [shape.isRun.digitRun_append, shape.digitRun_append present, Nat.add_zero]

/-- An exponent begins behind the fraction, so the fraction is read up to it. -/
theorem IsDecimal.fractionLength_eq (shape : IsDecimal whole fraction exponent)
    (isExponent : IsExponent exponent) (rest : Bytes) :
    fractionLength (fraction ++ (exponent ++ rest)) = fraction.length := by
  rcases shape.fraction with rfl | isFraction
  · exact isExponent.fractionLength_append rest
  · rw [isFraction.fractionLength_append, isExponent.digitRun_append, Nat.add_zero]

/-- A number with a fraction or an exponent is read at least to its end. -/
theorem IsDecimal.reaches (shape : IsDecimal whole fraction exponent)
    (present : fraction ≠ [] ∨ exponent ≠ []) (rest : Bytes) :
    Reaches (whole ++ (fraction ++ exponent)) .decimal
      (decimalNumber (whole ++ (fraction ++ (exponent ++ rest)))) := by
  have wholeLength := shape.digitRun_eq present rest
  rcases shape.exponent with rfl | isExponent
  · have nonempty : fraction ≠ [] := by simpa using present
    have isFraction : IsFraction fraction := shape.fraction.resolve_left nonempty
    have length := isFraction.fractionLength_append rest
    have positive := List.length_pos_iff.mpr nonempty
    rw [List.nil_append] at wholeLength ⊢
    rw [decimalNumber]
    simp only [wholeLength, List.drop_left, length]
    split
    · refine ⟨?_, fun _ => rfl⟩
      simp only [List.length_append, List.length_nil]
      omega
    · refine ⟨?_, fun _ => if_neg (by omega)⟩
      simp only [List.length_append, List.length_nil]
      omega
  · have length := shape.fractionLength_eq isExponent rest
    have found := isExponent.exponentLength?_append rest
    rw [decimalNumber]
    simp only [wholeLength, List.drop_left, length, ← List.drop_drop, found]
    refine ⟨?_, fun _ => rfl⟩
    simp only [List.length_append]
    omega

/-- Digits alone are read at least to their end, and what is read beyond makes them
decimal. -/
theorem IsRun.reaches (isRun : IsRun Byte.isDigit whole) (rest : Bytes) :
    Reaches whole .integer (decimalNumber (whole ++ rest)) := by
  have wholeLength := isRun.digitRun_append rest
  rw [decimalNumber]
  simp only [wholeLength]
  split
  · next size found =>
      obtain ⟨exponent, behind, -, isExponent, rfl⟩ := exists_exponent found
      obtain ⟨-, -, -⟩ := isExponent
      constructor <;> simp only [List.length_cons] <;> omega
  · constructor
    · simp only
      omega
    · intro same
      exact if_pos (by simp only at same; omega)

/-- Behind a zero and a marker letter no decimal number has more than the zero. -/
theorem IsDecimal.length_le_one {letter : UInt8} {more : Bytes}
    (shape : IsDecimal whole fraction exponent) (marker : IsMarker letter isDigit)
    (split : whole ++ (fraction ++ (exponent ++ rest)) = Byte.zero :: letter :: more) :
    (whole ++ (fraction ++ exponent)).length ≤ 1 := by
  obtain ⟨noDigit, notDot, notLower, notUpper⟩ := marker.ne
  have one : digitRun Byte.isDigit (Byte.zero :: letter :: more) = 1 := by
    have zero : IsRun Byte.isDigit [Byte.zero] := List.forall_mem_singleton.mpr rfl
    have behind := zero.digitRun_append (letter :: more)
    rwa [digitRun_of_not noDigit] at behind
  by_cases present : fraction ≠ [] ∨ exponent ≠ []
  · have wholeLength := shape.digitRun_eq present rest
    rw [split, one] at wholeLength
    obtain ⟨first, rfl⟩ := List.length_eq_one_iff.mp wholeLength.symm
    have behind : fraction ++ (exponent ++ rest) = letter :: more := (List.cons.inj split).2
    rcases shape.fraction with rfl | ⟨run, rfl, -⟩
    · rcases shape.exponent with rfl | ⟨same, -, -⟩
      · simp at present
      · obtain ⟨rfl, -⟩ := List.cons.inj behind
        exact absurd same (by simp [notLower, notUpper])
    · exact absurd (List.cons.inj behind).1.symm notDot
  · obtain ⟨rfl, rfl⟩ : fraction = [] ∧ exponent = [] := by simpa using present
    have wholeLength := shape.isRun.digitRun_append ([] ++ ([] ++ rest))
    rw [split, one] at wholeLength
    simp only [List.append_nil]
    omega

end

/-- A decimal number is read as one, unless a radix marker stands there and more is
read. -/
theorem reaches_of_decimalNumber {text : Bytes} {kind : Kind}
    (decimal : Reaches text kind (decimalNumber bytes))
    (short : ∀ {letter isDigit more}, IsMarker letter isDigit →
      bytes = Byte.zero :: letter :: more → text.length ≤ 1) :
    Reaches text kind (number bytes) := by
  rw [number]
  split
  · next size found =>
      obtain ⟨letter, isDigit, digits, rest, split, marker, -, rfl⟩ := exists_radix found
      have atMostOne := short marker split
      constructor <;> simp only <;> omega
  · exact decimal

/-- Of the numbers at the front none is longer than the one that is read, and one that is
as long is of the same kind. -/
theorem IsNumber.reaches {text : Bytes} {kind : Kind} (isNumber : IsNumber text kind)
    (rest : Bytes) : Reaches text kind (number (text ++ rest)) := by
  cases isNumber with
  | @radix letter isDigit digits marker isDigits =>
      have marked := radixDigit?_eq_some_iff.mpr marker
      have starts := isDigits.startsWhere_append rest
      have found : radixLength? (Byte.zero :: letter :: digits ++ rest) =
          some (2 + (digits.length + digitRun isDigit rest)) := by
        simp [radixLength?, marked, starts, isDigits.members.digitRun_append]
      rw [number, found]
      refine ⟨?_, fun _ => rfl⟩
      simp only [List.length_cons]
      omega
  | integer shape =>
      refine reaches_of_decimalNumber (shape.isRun.reaches rest) fun marker split => ?_
      have short : (text ++ ([] ++ [])).length ≤ 1 := shape.length_le_one marker split
      simpa using short
  | @decimal whole fraction exponent shape present =>
      have split : whole ++ (fraction ++ exponent) ++ rest =
          whole ++ (fraction ++ (exponent ++ rest)) := by simp
      rw [split]
      exact reaches_of_decimalNumber (shape.reaches present rest) shape.length_le_one

end

end Number

end PageScript
