import Mathlib.Data.Nat.Digits.Defs
import PageScript.Span

/-!
# Numbers in rows of text

Lines and columns are written in decimal digits, so that no number breaks a row or holds a
character that separates the fields of one, and a larger number is not shorter.
-/

namespace PageScript.Text

variable {value other : Nat} {char : Char}

theorem toList_toString (value : Nat) : (toString value).toList = Nat.toDigits 10 value := by
  rw [Nat.toString_eq_repr, Nat.toList_repr]

theorem not_mem_toString (noDigit : ¬ char.isDigit) (value : Nat) :
    char ∉ (toString value).toList := by
  rw [toList_toString]
  exact fun member => noDigit (Nat.isDigit_of_mem_toDigits (by decide) (by decide) member)

/-- A larger number has at least as many digits. -/
theorem length_toString_le (le : value ≤ other) :
    (toString value).length ≤ (toString other).length := by
  rw [← String.length_toList, ← String.length_toList, toList_toString, toList_toString,
    Nat.length_toDigits_le_iff (by decide) Nat.length_toDigits_pos]
  exact Nat.lt_of_le_of_lt le <|
    (Nat.length_toDigits_le_iff (by decide) Nat.length_toDigits_pos).mp (Nat.le_refl _)

/-- A position is two numbers with a colon between them. -/
theorem not_mem_position (noDigit : ¬ char.isDigit) (noColon : char ≠ ':') (span : Span) :
    char ∉ span.position.toList := by
  have line := not_mem_toString noDigit span.line.toNat
  have column := not_mem_toString noDigit span.column.toNat
  rw [Span.position, String.toList_append, String.toList_append]
  simp only [List.mem_append, not_or]
  exact ⟨⟨line, by simp [noColon]⟩, column⟩

end PageScript.Text
