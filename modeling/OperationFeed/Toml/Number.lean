import OperationFeed.Toml.Grammar

/-!
# Numbers

Integers are signed 64-bit numbers, in decimal notation with a sign or in another base without one.
Decimal fractions are kept as they are written, since nobody calculates with them; but one that is
greater than all finite 64-bit floating-point numbers is refused. A single underscore may stand
between two digits.
-/

namespace OperationFeed.Toml

open Scan

/-- One digit or more, with single underscores between them, which are left out. -/
def digitRun (p : Char → Bool) : Scan (List Char) := do
  let first ← satisfy p
  let more ← many (satisfy p <|> char '_' *> satisfy p)
  return first :: more

/-- A sign: whether it is a minus. -/
def sign : Scan Bool := (char '-' *> return true) <|> (char '+' *> return false) <|> return false

/-- The digits of a decimal integer: no zero stands before others. -/
def wholeDigits : Scan (List Char) := do
  if (← peek?) == some '0' then
    return [← satisfy isDigit]
  else
    digitRun isDigit

/-- The least integer that there is. -/
def minInteger : Int := Int64.minValue.toInt

/-- The greatest integer that there is. -/
def maxInteger : Int := Int64.maxValue.toInt

/-- An integer, if it is neither too small nor too great. -/
def inRange (n : Int) : Scan Int :=
  if minInteger ≤ n && n ≤ maxInteger then return n else failure

/-- An integer in a base other than ten, after the letter that stands for the base. -/
def integerInBase (letter : Char) (base : Nat) : Scan Int := do
  chars ['0', letter]
  inRange (digitsValue base (← digitRun fun c => isHexDigit c && digitValue c < base))

/-- A decimal integer. -/
def decimalInteger : Scan Int := do
  let negative ← sign
  let n : Int := digitsValue 10 (← wholeDigits)
  inRange (if negative then -n else n)

/-- An integer. -/
def integer : Scan Int :=
  integerInBase 'x' 16 <|> integerInBase 'o' 8 <|> integerInBase 'b' 2 <|> decimalInteger

/-- Half a step above the greatest finite 64-bit floating-point number, which is
`(2 ^ 53 - 1) * 2 ^ 971`. From here on numbers round to infinity. -/
def infinityBound : Nat := (Nat.pow 2 54 - 1) * Nat.pow 2 970

/-- Whether `m * 10 ^ e` rounds to infinity. With `d` digits in `m`, the number is below `10 ^
(d + e)` and not below `10 ^ (d + e - 1)`, so only for `d + e = 309` it has to be compared
with the bound. -/
def roundsToInfinity (m : Nat) (e : Int) : Bool :=
  let magnitude : Int := (Nat.toDigits 10 m).length + e
  if m = 0 || magnitude < 309 then false
  else if 309 < magnitude then true
  else if 0 ≤ e then infinityBound ≤ m * Nat.pow 10 e.toNat
  else infinityBound * Nat.pow 10 (-e).toNat ≤ m

/-- The exponent of a decimal fraction. -/
def exponent : Scan Int := do
  let _ ← satisfy (fun c => c == 'e' || c == 'E')
  let negative ← sign
  let n : Int := digitsValue 10 (← digitRun isDigit)
  return if negative then -n else n

/-- The digits of a decimal fraction, after the point. -/
def fraction : Scan (List Char) := do
  char '.'
  digitRun isDigit

/-- A decimal fraction: digits with a fraction or an exponent or both. -/
def finiteFloat : Scan Unit := do
  let negative ← sign
  let whole ← wholeDigits
  let frac ← opt fraction
  let exp ← opt exponent
  if frac.isNone && exp.isNone then failure
  let digits := whole ++ frac.getD []
  let scale := exp.getD 0 - ((frac.getD []).length : Int)
  if !negative && roundsToInfinity (digitsValue 10 digits) scale then failure

/-- Infinity, or what is not a number. -/
def specialFloat : Scan Unit := do
  let _ ← sign
  literal "inf" <|> literal "nan"

/-- A floating-point number. -/
def float : Scan Unit := finiteFloat <|> specialFloat

end OperationFeed.Toml
