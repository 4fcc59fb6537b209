import PageScript.Lexeme

/-!
# Numbers

A number is a radix marker with digits of that radix, or decimal digits with an
optional fraction and an optional exponent.  Underscores may stand among digits but
never open a run.  A marker or an exponent without a digit after it is not part of
the number.
-/

namespace PageScript.Lexeme

/-- The digits of the radix that a marker letter stands for. -/
def radixDigit? (letter : UInt8) : Option (UInt8 → Bool) :=
  let lowered := Byte.toLower letter
  if lowered = Byte.ofChar 'x' then some Byte.isHexDigit
  else if lowered = Byte.ofChar 'b' then some Byte.isBinaryDigit
  else if lowered = Byte.ofChar 'o' then some Byte.isOctalDigit
  else none

/-- Length of a run of digits and underscores. -/
def digitRun (isDigit : UInt8 → Bool) (bytes : Bytes) : Nat :=
  Bytes.runLength (fun byte => isDigit byte || byte == Byte.underscore) bytes

/-- Length of a number with a radix marker. -/
def radixLength? : Bytes → Option Nat
  | first :: letter :: digits =>
      if first = Byte.zero then
        match radixDigit? letter with
        | none => none
        | some isDigit =>
            if Bytes.startsWhere isDigit digits then
              some (2 + digitRun isDigit digits)
            else
              none
      else
        none
  | _ => none

/-- Length of a fraction: the dot and the digits after it.  Zero if no dot stands
there. -/
def fractionLength : Bytes → Nat
  | [] => 0
  | byte :: rest =>
      if byte = Byte.dot then 1 + digitRun Byte.isDigit rest else 0

/-- Length of the sign at the front of an exponent. -/
def signLength (bytes : Bytes) : Nat :=
  if Bytes.startsWhere (fun byte => byte == Byte.plus || byte == Byte.minus) bytes then 1
  else 0

/-- Length of an exponent: the letter, a sign, and digits. -/
def exponentLength? : Bytes → Option Nat
  | [] => none
  | letter :: rest =>
      let digits := rest.drop (signLength rest)
      if Byte.toLower letter = Byte.ofChar 'e' && Bytes.startsWhere Byte.isDigit digits then
        some (1 + signLength rest + digitRun Byte.isDigit digits)
      else
        none

/-- A decimal number, or a fraction that begins with its dot. -/
def decimalNumber (bytes : Bytes) : Lexeme :=
  let whole := digitRun Byte.isDigit bytes
  let fraction := fractionLength (bytes.drop whole)
  match exponentLength? (bytes.drop (whole + fraction)) with
  | some exponent => ⟨.decimal, whole + fraction + exponent⟩
  | none => ⟨if fraction = 0 then .integer else .decimal, whole + fraction⟩

/-- The number at the front, which must begin with a digit or with a dot and a
digit. -/
def number (bytes : Bytes) : Lexeme :=
  match radixLength? bytes with
  | some size => ⟨.integer, size⟩
  | none => decimalNumber bytes

end PageScript.Lexeme
