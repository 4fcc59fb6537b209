/-!
# Whole numbers in text

A whole number is written in decimal digits, which one plus sign may precede.
-/

namespace PageScript.Text

/-- The number that decimal digits spell, with an optional plus sign. -/
def wholeNumber? (text : String) : Option Nat :=
  let digits :=
    match text.toList with
    | '+' :: rest => rest
    | chars => chars
  if !digits.isEmpty && digits.all (fun char => '0' ≤ char && char ≤ '9') then
    some (digits.foldl (fun value digit => value * 10 + (digit.toNat - 0x30)) 0)
  else none

end PageScript.Text
