import OperationFeed.Toml.Grammar

/-!
# Quoted text

Text stands in double quotes, where a backslash begins an escape, or in single quotes, where it does
not; and in either case within a line, or between triple quotes over several lines. In a long text
one or two quotes stand for themselves, also just before the end. The first line end after the
opening quotes does not count, and a backslash at the end of a line hides the line end and all
blanks and line ends after it.
-/

namespace OperationFeed.Toml

open Scan

/-- A character given by the hexadecimal digits of its number, as many as asked for. -/
def codePoint (digits : Nat) : Scan Char := do
  let code := digitsValue 16 (← exactly isHexDigit digits)
  if code.isValidChar then return Char.ofNat code else failure

/-- What stands for one character after a backslash. -/
def escapedChar : Scan Char := do
  match ← satisfy (fun _ => true) with
  | 'b' => return '\x08'
  | 't' => return '\t'
  | 'n' => return '\n'
  | 'f' => return '\x0c'
  | 'r' => return '\r'
  | '"' => return '"'
  | '\\' => return '\\'
  | 'u' => codePoint 4
  | 'U' => codePoint 8
  | _ => failure

/-- An escape. -/
def escape : Scan (List Char) := do
  char '\\'
  return [← escapedChar]

/-- A backslash at the end of a line, with the blanks and line ends that it hides. -/
def hiddenLineEnd : Scan (List Char) := do
  char '\\'
  blanks
  newline
  let blank : Scan Unit := do
    let _ ← satisfy isBlank
  let _ ← many (blank <|> newline)
  return []

/-- A character that stands for itself, other than the quote and the backslash if that begins an
escape. -/
def plainChar (quote : Char) (hasEscapes : Bool) : Scan (List Char) := do
  return [← satisfy fun c => isPrintable c && c != quote && !(hasEscapes && c == '\\')]

/-- A line end within a long text. -/
def innerNewline : Scan (List Char) := do
  newline
  return ['\n']

/-- One or two quotes within a long text, of which more follows. -/
def innerQuotes (quote : Char) : Scan (List Char) := do
  let quotes := (← get).takeWhile (· == quote)
  if quotes.length < 3 then takeWhile (· == quote) else failure

/-- The end of a long text: three quotes, after up to two that belong to the text. -/
def closingQuotes (quote : Char) : Scan (List Char) := do
  let quotes ← takeWhile (· == quote)
  if 3 ≤ quotes.length && quotes.length ≤ 5 then return quotes.drop 3 else failure

/-- Text within a line. -/
def shortText (quote : Char) (hasEscapes : Bool) : Scan String := do
  char quote
  let piece := if hasEscapes then plainChar quote true <|> escape else plainChar quote false
  let pieces ← many piece
  char quote
  return String.ofList pieces.flatten

/-- Text over several lines. -/
def longText (quote : Char) (hasEscapes : Bool) : Scan String := do
  chars [quote, quote, quote]
  let _ ← opt newline
  let plain := plainChar quote hasEscapes <|> innerNewline
  let piece := if hasEscapes then plain <|> hiddenLineEnd <|> escape else plain
  let pieces ← many (do
    let quotes ← (innerQuotes quote <|> return [])
    return quotes ++ (← piece))
  let quotes ← closingQuotes quote
  return String.ofList (pieces.flatten ++ quotes)

/-- Quoted text of any kind. -/
def quotedText : Scan String :=
  longText '"' true <|> shortText '"' true <|> longText '\'' false <|> shortText '\'' false

end OperationFeed.Toml
