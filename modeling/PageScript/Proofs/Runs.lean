import PageScript.Bytes

/-!
# Runs of bytes

Looking ahead finds runs: the bytes at the front that belong to a class, up to the
first one that does not.  A run is best seen as a split of the bytes in two, and the
functions that only return its length are tied to that view here.
-/

namespace PageScript.Bytes

variable {accept : UInt8 → Bool}

/-- A number of bytes that are there is the length of some front. -/
theorem exists_split {bytes : Bytes} {count : Nat} (fits : count ≤ bytes.length) :
    ∃ front back, bytes = front ++ back ∧ count = front.length :=
  ⟨bytes.take count, bytes.drop count, (List.take_append_drop count bytes).symm,
    (List.length_take_of_le fits).symm⟩

@[simp] theorem startsWhere_nil : startsWhere accept [] = false := rfl

@[simp] theorem startsWhere_cons (byte : UInt8) (rest : Bytes) :
    startsWhere accept (byte :: rest) = accept byte := rfl

theorem exists_cons_of_startsWhere {bytes : Bytes} (starts : startsWhere accept bytes) :
    ∃ byte rest, bytes = byte :: rest ∧ accept byte := by
  cases bytes with
  | nil => contradiction
  | cons byte rest => exact ⟨byte, rest, rfl, starts⟩

theorem startsWhere_length_pos {bytes : Bytes} (starts : startsWhere accept bytes) :
    0 < bytes.length := by
  obtain ⟨byte, rest, rfl, -⟩ := exists_cons_of_startsWhere starts
  exact Nat.succ_pos _

theorem startsWhere_append {front : Bytes} (nonempty : front ≠ []) (back : Bytes) :
    startsWhere accept (front ++ back) = startsWhere accept front := by
  cases front with
  | nil => contradiction
  | cons byte front => rfl

/-- The byte at an offset is the first of those that are left from there on. -/
theorem startsWhere_drop_iff {bytes : Bytes} {offset : Nat} :
    startsWhere accept (bytes.drop offset) ↔
      ∃ byte, bytes[offset]? = some byte ∧ accept byte := by
  rw [← List.head?_drop]
  cases bytes.drop offset <;> simp

theorem runLength_eq_length_takeWhile (bytes : Bytes) :
    runLength accept bytes = (bytes.takeWhile accept).length := by
  induction bytes with
  | nil => rfl
  | cons byte rest ih =>
      rw [runLength, List.takeWhile_cons, ih]
      split <;> rfl

/-- A run goes on behind bytes that all belong to it, and otherwise ends among
them. -/
theorem runLength_append (accept : UInt8 → Bool) (front back : Bytes) :
    runLength accept (front ++ back) =
      if runLength accept front = front.length then front.length + runLength accept back
      else runLength accept front := by
  simp only [runLength_eq_length_takeWhile, List.takeWhile_append]
  split <;> simp

/-- A run is known by its bytes and by what follows them. -/
theorem runLength_append_of_stops {run rest : Bytes} (members : ∀ byte ∈ run, accept byte)
    (stops : ¬ startsWhere accept rest) : runLength accept (run ++ rest) = run.length := by
  rw [runLength_eq_length_takeWhile, List.takeWhile_append_of_pos members]
  cases rest with
  | nil => simp
  | cons byte rest =>
      have stopsHere : ¬ accept byte = true := stops
      rw [List.takeWhile_cons_of_neg stopsHere, List.append_nil]

/-- Any bytes are a run and the bytes after it. -/
theorem exists_run (accept : UInt8 → Bool) (bytes : Bytes) :
    ∃ run rest, bytes = run ++ rest ∧ (∀ byte ∈ run, accept byte) ∧
      ¬ startsWhere accept rest ∧ runLength accept bytes = run.length := by
  refine ⟨bytes.takeWhile accept, bytes.dropWhile accept,
    List.takeWhile_append_dropWhile.symm, ?_, ?_, runLength_eq_length_takeWhile bytes⟩
  · exact List.all_eq_true.mp List.all_takeWhile
  · have stopped := List.head?_dropWhile_not accept bytes
    cases left : bytes.dropWhile accept with
    | nil => simp
    | cons byte rest => simpa [left] using stopped

theorem runLength_pos {bytes : Bytes} (starts : startsWhere accept bytes) :
    0 < runLength accept bytes := by
  obtain ⟨byte, rest, rfl, member⟩ := exists_cons_of_startsWhere starts
  simp [runLength, member]

theorem isNamePart_of_isNameStart {byte : UInt8} (starts : Byte.isNameStart byte) :
    Byte.isNamePart byte := by
  simp [Byte.isNamePart, starts]

theorem nameLength_le (bytes : Bytes) : nameLength bytes ≤ bytes.length := by
  rw [nameLength]
  split
  · exact runLength_le _ _
  · exact Nat.zero_le _

theorem nameLength_pos {bytes : Bytes} (starts : startsWhere Byte.isNameStart bytes) :
    0 < nameLength bytes := by
  rw [nameLength, if_pos starts]
  apply runLength_pos
  obtain ⟨byte, rest, rfl, member⟩ := exists_cons_of_startsWhere starts
  exact isNamePart_of_isNameStart member

theorem lineBreakLength_le (bytes : Bytes) : lineBreakLength bytes ≤ bytes.length := by
  cases bytes with
  | nil => simp [lineBreakLength]
  | cons first rest =>
      simp only [lineBreakLength]
      split
      · simp
      · split
        · next pair =>
            have following := startsWhere_length_pos (Bool.and_eq_true_iff.mp pair).2
            simp only [List.length_cons]
            omega
        · simp

theorem isPrefixOf_length_le {pattern bytes : Bytes} (found : pattern.isPrefixOf bytes) :
    pattern.length ≤ bytes.length :=
  (List.isPrefixOf_iff_prefix.mp found).length_le

end PageScript.Bytes
