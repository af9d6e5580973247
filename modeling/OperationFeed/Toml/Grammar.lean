/-!
# Scanning text

A `Scan` takes a value off the front of a text, or fails. It is tried as often as it can be by
`Scan.many`; each success has to take a character, so the length of the text bounds the number of
tries.
-/

namespace OperationFeed.Toml

/-- Takes a value off the front of a text, or fails. -/
abbrev Scan (α : Type) : Type := StateT (List Char) Option α

namespace Scan

variable {α : Type}

/-- The next character, left where it is. -/
def peek? : Scan (Option Char) := return (← get).head?

/-- The end of the text. -/
def endOfText : Scan Unit := do
  if !(← get).isEmpty then failure

/-- The next character, if it satisfies `p`. -/
def satisfy (p : Char → Bool) : Scan Char := do
  match ← get with
  | c :: rest => if p c then set rest; return c else failure
  | [] => failure

/-- A given character. -/
def char (c : Char) : Scan Unit := do
  let _ ← satisfy (· == c)

/-- Given characters, one after the other. -/
def chars : List Char → Scan Unit
  | [] => return
  | c :: rest => do
    char c
    chars rest

/-- A given text. -/
def literal (s : String) : Scan Unit := chars s.toList

/-- All characters up to the first that fails `p`. -/
def takeWhile (p : Char → Bool) : Scan (List Char) := do
  let text ← get
  set (text.dropWhile p)
  return text.takeWhile p

/-- As many characters as asked for, all of which satisfy `p`. -/
def exactly (p : Char → Bool) : Nat → Scan (List Char)
  | 0 => return []
  | n + 1 => do
    let c ← satisfy p
    return c :: (← exactly p n)

/-- A value, or none if `p` fails. -/
def opt (p : Scan α) : Scan (Option α) := (some <$> p) <|> return none

/-- Values as long as `p` succeeds, at most `n`. -/
def upTo (p : Scan α) : (n : Nat) → Scan (List α)
  | 0 => return []
  | n + 1 => do
    match ← opt p with
    | none => return []
    | some a => return a :: (← upTo p n)

/-- Values as long as `p` succeeds. Each takes at least one character. -/
def many (p : Scan α) : Scan (List α) := do
  upTo p (← get).length

/-- One or more values with a separator between them. -/
def sepBy (p : Scan α) (separator : Scan Unit) : Scan (List α) := do
  let first ← p
  return first :: (← many (separator *> p))

end Scan

/-! ### Characters -/

/-- Blanks within a line: spaces and tabs. -/
def isBlank (c : Char) : Bool := c == ' ' || c == '\t'

/-- Characters that may stand in comments and quotes: all but control characters, of which only the
tab is allowed. -/
def isPrintable (c : Char) : Bool := c == '\t' || (' ' ≤ c && c != '\x7f')

/-- Decimal digits. -/
def isDigit (c : Char) : Bool := '0' ≤ c && c ≤ '9'

/-- Hexadecimal digits. -/
def isHexDigit (c : Char) : Bool :=
  isDigit c || ('a' ≤ c && c ≤ 'f') || ('A' ≤ c && c ≤ 'F')

/-- The number that a digit stands for, up to base sixteen. -/
def digitValue (c : Char) : Nat :=
  if isDigit c then c.toNat - '0'.toNat
  else if 'a' ≤ c then c.toNat - 'a'.toNat + 10
  else c.toNat - 'A'.toNat + 10

/-- The number that digits stand for. -/
def digitsValue (base : Nat) (digits : List Char) : Nat :=
  digits.foldl (fun n c => n * base + digitValue c) 0

/-- Characters of a key that needs no quotes. -/
def isBareKeyChar (c : Char) : Bool :=
  isDigit c || ('a' ≤ c && c ≤ 'z') || ('A' ≤ c && c ≤ 'Z') || c == '_' || c == '-'

/-! ### Blanks, line ends and comments -/

open Scan

/-- Blanks, if there are any. -/
def blanks : Scan Unit := do
  let _ ← takeWhile isBlank

/-- The end of a line: a line feed, or a carriage return with one. -/
def newline : Scan Unit := char '\n' <|> chars ['\r', '\n']

/-- A comment, without the end of its line. -/
def comment : Scan Unit := do
  char '#'
  let _ ← takeWhile isPrintable

/-- What may follow a statement: blanks, a comment, and the end of the line or of the text. -/
def lineEnd : Scan Unit := do
  blanks
  let _ ← opt comment
  newline <|> endOfText

/-- Blanks, comments and line ends, as they may stand between the values of an array. -/
def padding : Scan Unit := do
  let blank : Scan Unit := do
    let _ ← satisfy isBlank
  let _ ← many (blank <|> newline <|> comment *> newline)

end OperationFeed.Toml
