/-!
# Spans of time

A `Duration` is a whole number of nanoseconds. Its text uses the largest unit in which there is a
whole part, and gives the rest as an exact decimal fraction: `5s`, `1.5ms`, `1.001µs`, `999ns`.
-/

namespace OperationFeed

/-- A span of time. -/
structure Duration where
  nanoseconds : Nat
deriving DecidableEq

namespace Duration

/-- The nanoseconds of a second. -/
def second : Nat := 1000000000

/-- The nanoseconds of a millisecond. -/
def millisecond : Nat := 1000000

/-- The nanoseconds of a microsecond. -/
def microsecond : Nat := 1000

/-- The span of some seconds and some nanoseconds. -/
def ofParts (seconds nanoseconds : Nat) : Duration := ⟨seconds * second + nanoseconds⟩

/-- The whole seconds in a span. -/
def wholeSeconds (d : Duration) : Nat := d.nanoseconds / second

/-- The fewest whole milliseconds that are not shorter. -/
def ceilMilliseconds (d : Duration) : Nat := (d.nanoseconds + (millisecond - 1)) / millisecond

/-- The first `count` decimal digits of `n`, from the digit that counts `unit` on. -/
def fractionDigits : (count : Nat) → (unit n : Nat) → List Char
  | 0, _, _ => []
  | count + 1, unit, n =>
    (n / unit % 10).digitChar :: fractionDigits count (unit / 10) (n % unit)

/-- The decimal text of `n` in units of `10 ^ places`, without zeros at the end of the fraction. -/
def decimalText (n places : Nat) : String :=
  let unit := Nat.pow 10 places
  let digits := fractionDigits places (unit / 10) (n % unit)
  let fraction := (digits.reverse.dropWhile (· == '0')).reverse
  let whole := toString (n / unit)
  if fraction.isEmpty then whole else whole ++ "." ++ String.ofList fraction

/-- The text of a duration, in the largest unit that has a whole part. -/
def text (d : Duration) : String :=
  let n := d.nanoseconds
  if second ≤ n then decimalText n 9 ++ "s"
  else if millisecond ≤ n then decimalText n 6 ++ "ms"
  else if microsecond ≤ n then decimalText n 3 ++ "µs"
  else decimalText n 0 ++ "ns"

instance : ToString Duration := ⟨text⟩

end Duration

end OperationFeed
