import PageScript.Settings.Toml.Value

/-!
# Words of a settings text

Numbers, truth values and times are written as one word without quotes.  A word
is an integer, a floating-point number or a time by its shape alone.  Integers must
fit in 64 bits with sign.  Only the shape of floating-point numbers and times is
kept, because no setting holds one.
-/

namespace PageScript.Toml

/-- A piece of a settings text. -/
abbrev Chars := List Char

/-- A decimal digit. -/
def isDigit (char : Char) : Bool :=
  '0' ≤ char && char ≤ '9'

/-- A hexadecimal digit of either case. -/
def isHexDigit (char : Char) : Bool :=
  isDigit char || ('a' ≤ char && char ≤ 'f') || ('A' ≤ char && char ≤ 'F')

/-- The value of a hexadecimal digit. -/
def digitValue (char : Char) : Nat :=
  if isDigit char then char.toNat - 0x30
  else if 'a' ≤ char then char.toNat - 0x57
  else char.toNat - 0x37

/-- The number that digits spell in a base, underscores left out. -/
def numberIn (base : Nat) (digits : Chars) : Nat :=
  (digits.filter (· != '_')).foldl (fun value digit => value * base + digitValue digit) 0

/-- Whether a text is made of digits, with single underscores between digits only. -/
def isGrouped (accepts : Char → Bool) (afterDigit : Bool) : Chars → Bool
  | [] => afterDigit
  | char :: rest =>
      if char = '_' then afterDigit && isGrouped accepts false rest
      else accepts char && isGrouped accepts true rest

/-- Whether a text is a decimal number without sign.  Only zero begins with a zero. -/
def isDecimal (digits : Chars) : Bool :=
  isGrouped isDigit false digits && (digits.head? != some '0' || digits.length == 1)

/-- A text without its sign, and whether the sign is a minus. -/
def splitSign : Chars → Bool × Chars
  | '-' :: rest => (true, rest)
  | '+' :: rest => (false, rest)
  | chars => (false, chars)

/-- The integer that a word spells, of any size. -/
def integer? (word : Chars) : Option Int :=
  match word with
  | '0' :: 'x' :: digits =>
      if isGrouped isHexDigit false digits then some (numberIn 16 digits) else none
  | '0' :: 'o' :: digits =>
      if isGrouped (fun char => '0' ≤ char && char ≤ '7') false digits then
        some (numberIn 8 digits)
      else none
  | '0' :: 'b' :: digits =>
      if isGrouped (fun char => char == '0' || char == '1') false digits then
        some (numberIn 2 digits)
      else none
  | _ =>
      let (negative, digits) := splitSign word
      if isDecimal digits then
        let value : Int := numberIn 10 digits
        some (if negative then -value else value)
      else none

/-- Whether an integer fits in 64 bits with sign. -/
def fits (value : Int) : Bool :=
  -0x8000000000000000 ≤ value && value < 0x8000000000000000

/-- Whether a text is an exponent with its letter. -/
def isExponent : Chars → Bool
  | letter :: rest =>
      (letter == 'e' || letter == 'E') && isGrouped isDigit false (splitSign rest).2
  | [] => false

/-- Whether a word is a floating-point number. -/
def isFloat (word : Chars) : Bool :=
  let unsigned := (splitSign word).2
  let inWhole (char : Char) : Bool := isDigit char || char == '_'
  let rest := unsigned.dropWhile inWhole
  unsigned == ['i', 'n', 'f'] || unsigned == ['n', 'a', 'n'] ||
    (isDecimal (unsigned.takeWhile inWhole) &&
      match rest with
      | '.' :: fraction =>
          let after := fraction.dropWhile inWhole
          isGrouped isDigit false (fraction.takeWhile inWhole) &&
            (after.isEmpty || isExponent after)
      | _ => isExponent rest)

/-- The number of exactly two digits at the front. -/
def twoDigits? : Chars → Option (Nat × Chars)
  | first :: second :: rest =>
      if isDigit first && isDigit second then
        some (digitValue first * 10 + digitValue second, rest)
      else none
  | _ => none

/-- The rest after one expected character. -/
def after? (expected : Char) : Chars → Option Chars
  | char :: rest => if char = expected then some rest else none
  | [] => none

/-- Number of days of a month. -/
def daysIn (year month : Nat) : Nat :=
  if month = 2 then
    if year % 4 = 0 && (year % 100 != 0 || year % 400 == 0) then 29 else 28
  else if month = 4 || month = 6 || month = 9 || month = 11 then 30
  else 31

/-- The rest after a date at the front. -/
def date? (chars : Chars) : Option Chars := do
  let (century, rest) ← twoDigits? chars
  let (yearOfCentury, rest) ← twoDigits? rest
  let rest ← after? '-' rest
  let (month, rest) ← twoDigits? rest
  let rest ← after? '-' rest
  let (day, rest) ← twoDigits? rest
  let year := century * 100 + yearOfCentury
  if 1 ≤ month && month ≤ 12 && 1 ≤ day && day ≤ daysIn year month then some rest else none

/-- The rest after a time of day at the front. -/
def timeOfDay? (chars : Chars) : Option Chars := do
  let (hour, rest) ← twoDigits? chars
  let rest ← after? ':' rest
  let (minute, rest) ← twoDigits? rest
  let rest ← after? ':' rest
  let (second, rest) ← twoDigits? rest
  if hour < 24 && minute < 60 && second ≤ 60 then
    match rest with
    | '.' :: fraction =>
        if (fraction.takeWhile isDigit).isEmpty then none
        else some (fraction.dropWhile isDigit)
    | _ => some rest
  else none

/-- Whether a text is nothing or an offset from universal time. -/
def isOffset : Chars → Bool
  | [] => true
  | ['Z'] => true
  | ['z'] => true
  | sign :: rest =>
      (sign == '+' || sign == '-') &&
        match twoDigits? rest with
        | some (hour, ':' :: minutes) =>
            match twoDigits? minutes with
            | some (minute, []) => hour < 24 && minute < 60
            | _ => false
        | _ => false

/-- Whether a word is a date, a time of day, or both. -/
def isTime (word : Chars) : Bool :=
  match date? word with
  | some [] => true
  | some (separator :: rest) =>
      (separator == 'T' || separator == 't' || separator == ' ') &&
        match timeOfDay? rest with
        | some offset => isOffset offset
        | none => false
  | none => timeOfDay? word == some []

/-- The value that a word stands for. -/
def word? (word : Chars) : Option Value :=
  if word = ['t', 'r', 'u', 'e'] then some (.boolean true)
  else if word = ['f', 'a', 'l', 's', 'e'] then some (.boolean false)
  else
    match integer? word with
    | some value => if fits value then some (.integer value) else none
    | none =>
        if isFloat word then some .float
        else if isTime word then some .time
        else none

end PageScript.Toml
