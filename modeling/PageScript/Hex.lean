import PageScript.Bytes

/-!
# Hexadecimal digits

Values of hexadecimal digits, read from bytes and written for output.  A word is
read digit by digit and refused at the first digit that takes it past 64 bits, so
no more than 64 bits are ever held.
-/

namespace PageScript.Hex

/-- The value of a hexadecimal digit of either case. -/
def digitValue? (byte : UInt8) : Option Nat :=
  if Byte.isDigit byte then some (byte.toNat - 0x30)
  else if 0x61 ≤ byte && byte ≤ 0x66 then some (byte.toNat - 0x61 + 10)
  else if 0x41 ≤ byte && byte ≤ 0x46 then some (byte.toNat - 0x41 + 10)
  else none

/-- The byte that exactly two digits spell. -/
def byte? : Bytes → Option UInt8
  | [high, low] => do
      let high ← digitValue? high
      let low ← digitValue? low
      return UInt8.ofNat (high * 16 + low)
  | _ => none

/-- One past the largest word. -/
abbrev wordLimit : Nat := UInt64.size

/-- Read further digits after a value.  A byte that is no digit, or a digit that
takes the value to the limit, refuses the whole text. -/
def wordFrom? (value : Nat) : Bytes → Option Nat
  | [] => some value
  | byte :: rest =>
      match digitValue? byte with
      | none => none
      | some digit =>
          if value * 16 + digit < wordLimit then
            wordFrom? (value * 16 + digit) rest
          else
            none

/-- The 64-bit word that a non-empty run of digits spells. -/
def word? (digits : Bytes) : Option Nat :=
  if digits.isEmpty then none else wordFrom? 0 digits

/-- The character of a digit value, in lower case. -/
def digitChar (value : Nat) : Char :=
  if value < 10 then Char.ofNat (0x30 + value) else Char.ofNat (0x57 + value)

/-- The two lower-case digits of a byte. -/
def byteChars (byte : UInt8) : List Char :=
  [digitChar (byte.toNat / 16), digitChar (byte.toNat % 16)]

/-- The digits of a number in lower case, without leading zeros. -/
def natChars (value : Nat) : List Char :=
  Nat.toDigits 16 value

end PageScript.Hex
