import OperationFeed.Toml.Document
import OperationFeed.Toml.Moment
import OperationFeed.Toml.Number
import OperationFeed.Toml.Quoted

/-!
# Reading documents

A document is a list of lines: headers, which open tables, and keys with their values. Main
function: `readDocument?`, the entries of a valid document. Arrays and inline tables nest at most
`maxNesting` deep, and a key has at most as many parts.
-/

namespace OperationFeed.Toml

open Scan

/-- How deep values may nest, and how many parts a key may have. -/
def maxNesting : Nat := 79

/-! ### Keys -/

/-- A key without dots, bare or quoted within a line. -/
def simpleKey : Scan String := do
  match ← peek? with
  | some '"' => shortText '"' true
  | some '\'' => shortText '\'' false
  | _ =>
    let cs ← takeWhile isBareKeyChar
    if cs.isEmpty then failure
    return String.ofList cs

/-- A key with dots, and blanks around its parts. -/
def dottedKey : Scan DottedKey := do
  let parts ← sepBy (blanks *> simpleKey <* blanks) (char '.')
  if maxNesting < parts.length then failure
  match DottedKey.ofParts? parts with
  | some k => return k
  | none => failure

/-! ### Values -/

/-- Values between brackets, with commas between them and perhaps one at the end. -/
def arrayOf (value : Scan Value) : Scan Value := do
  char '['
  let items ← opt (sepBy (padding *> value <* padding) (char ','))
  if items.isSome then
    let _ ← opt (char ',')
  padding
  char ']'
  return .array (items.getD [])

/-- Keys with values between braces, with commas between them. -/
def inlineTableOf (value : Scan Value) : Scan Value := do
  let entry : Scan (DottedKey × Value) := do
    let k ← dottedKey
    char '='
    let v ← blanks *> value <* blanks
    return (k, v)
  char '\x7b'
  let given ← opt (sepBy entry (char ','))
  blanks
  char '\x7d'
  let put (entries : Entries) (e : DottedKey × Value) : Option Entries :=
    entries.putDotted e.1.path e.1.key e.2
  match (given.getD []).foldlM put [] with
  | some entries => return .inline entries
  | none => failure

/-- A value in which others nest at most `depth` deep. -/
def value (depth : Nat) : Scan Value := do
  match ← peek? with
  | some '"' | some '\'' => return .text (← quotedText)
  | some 't' =>
    literal "true"
    return .boolean true
  | some 'f' =>
    literal "false"
    return .boolean false
  | some '[' =>
    match depth with
    | 0 => failure
    | depth + 1 => arrayOf (value depth)
  | some '\x7b' =>
    match depth with
    | 0 => failure
    | depth + 1 => inlineTableOf (value depth)
  | _ =>
    (moment *> return .moment) <|> (float *> return .float) <|> (.integer <$> integer)

/-! ### Lines -/

/-- One statement of a document, or an empty line. -/
inductive Line where
  -- Nothing but perhaps a comment.
  | blank
  -- The header of a table.
  | header (key : DottedKey)
  -- The header of one more table of an array.
  | arrayHeader (key : DottedKey)
  -- A key with its value.
  | entry (key : DottedKey) (value : Value)

/-- A header in double brackets. -/
def arrayHeader : Scan Line := do
  literal "[["
  let k ← dottedKey
  literal "]]"
  return .arrayHeader k

/-- A header in single brackets. -/
def header : Scan Line := do
  char '['
  let k ← dottedKey
  char ']'
  return .header k

/-- A key with its value. -/
def entry : Scan Line := do
  let k ← dottedKey
  char '='
  blanks
  return .entry k (← value maxNesting)

/-- A line, with its end. -/
def line : Scan Line := do
  blanks
  let content ← match ← peek? with
    | none | some '#' | some '\n' | some '\r' => pure Line.blank
    | some '[' => arrayHeader <|> header
    | _ => entry
  lineEnd
  return content

/-- What a line adds to a document. -/
def Draft.addLine (d : Draft) : Line → Option Draft
  | .blank => some d
  | .header k => d.openTable k
  | .arrayHeader k => d.openNextTable k
  | .entry k v => d.assign k v

/-- The lines of a text; at most `fuel`, each of which takes a character. -/
def linesUpTo : (fuel : Nat) → Scan (List Line)
  | 0 => do
    endOfText
    return []
  | fuel + 1 => do
    if (← get).isEmpty then return []
    let first ← line
    return first :: (← linesUpTo fuel)

/-- The entries of a document, if the text is one. A byte order mark at the beginning is passed
over. -/
def readDocument? (text : String) : Option Entries := do
  let cs := match text.toList with
    | '\ufeff' :: rest => rest
    | cs => cs
  let (lines, _) ← (linesUpTo cs.length).run cs
  let draft ← lines.foldlM Draft.addLine Draft.empty
  return draft.root

end OperationFeed.Toml
