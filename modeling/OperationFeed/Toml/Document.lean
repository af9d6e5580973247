/-!
# Documents

A document maps keys to values, and a value may again map keys to values: as a table, which is put
together by several statements, or as an inline table, which is closed when it is written. A table
can be extended only in the way in which it came to be (`TableOrigin`):

* a table that a header has *opened* takes statements under that header, and no other header or
  dotted key opens it again;
* a table that is only *implied*, as part of the path of a header, may still be opened by its own;
* a table made by a *dotted* key takes further dotted keys.
-/

namespace OperationFeed.Toml

/-- How a table came to be. -/
inductive TableOrigin where
  -- A header names the table.
  | opened
  -- A header names a table within the table.
  | implied
  -- A dotted key leads through the table.
  | dotted
deriving DecidableEq

/-- The value of a key. Numbers other than integers, dates and times are not looked into. -/
inductive Value where
  -- A text.
  | text (s : String)
  -- An integer.
  | integer (n : Int)
  -- A truth value.
  | boolean (b : Bool)
  -- A floating-point number.
  | float
  -- A date, a time of day, or both.
  | moment
  -- An array of values.
  | array (items : List Value)
  -- An inline table.
  | inline (entries : List (String × Value))
  -- A table.
  | table (origin : TableOrigin) (entries : List (String × Value))
  -- An array of tables, each under a header of its own, latest first.
  | tables (latest : List (String × Value)) (earlier : List (List (String × Value)))

/-- Keys with their values, in the order in which they were written. -/
abbrev Entries : Type := List (String × Value)

namespace Entries

/-- The value of a key. -/
def get? (entries : Entries) (key : String) : Option Value := entries.lookup key

/-- Give a key a value, in place of the one it has. -/
def put (entries : Entries) (key : String) (value : Value) : Entries :=
  if (entries.get? key).isSome then
    entries.map fun e => if e.1 == key then (key, value) else e
  else
    entries ++ [(key, value)]

/-- Give a key that has none a value. -/
def add? (entries : Entries) (key : String) (value : Value) : Option Entries :=
  if (entries.get? key).isSome then none else some (entries.put key value)

/-- Give the key at the end of a dotted key a value. The tables on the way must come from dotted
keys as well; one that is only implied may be passed through, but takes no value of its own. -/
def putDotted (entries : Entries) (path : List String) (key : String) (value : Value) :
    Option Entries :=
  match path with
  | [] => entries.add? key value
  | first :: rest => do
    match entries.get? first with
    | none => return entries.put first (.table .dotted (← putDotted [] rest key value))
    | some (.table .opened _) => none
    | some (.table .implied inner) =>
      if rest.isEmpty then none
      else return entries.put first (.table .implied (← putDotted inner rest key value))
    | some (.table .dotted inner) =>
      return entries.put first (.table .dotted (← putDotted inner rest key value))
    | some (.tables latest earlier) =>
      if rest.isEmpty then none
      else return entries.put first (.tables (← putDotted latest rest key value) earlier)
    | some _ => none

/-- Change the table at the end of a path, of an array of tables the latest. Tables on the way that
are missing are implied. -/
def changeAt (entries : Entries) (path : List String) (change : Entries → Option Entries) :
    Option Entries :=
  match path with
  | [] => change entries
  | first :: rest => do
    match entries.get? first with
    | none => return entries.put first (.table .implied (← changeAt [] rest change))
    | some (.table origin inner) =>
      return entries.put first (.table origin (← changeAt inner rest change))
    | some (.tables latest earlier) =>
      return entries.put first (.tables (← changeAt latest rest change) earlier)
    | some _ => none

/-- Open the table with a given key, as its header does. -/
def openTable (key : String) (entries : Entries) : Option Entries :=
  match entries.get? key with
  | none => some (entries.put key (.table .opened []))
  | some (.table .implied inner) => some (entries.put key (.table .opened inner))
  | some _ => none

/-- Open one more table of the array of tables with a given key. -/
def openNextTable (key : String) (entries : Entries) : Option Entries :=
  match entries.get? key with
  | none => some (entries.put key (.tables [] []))
  | some (.tables latest earlier) => some (entries.put key (.tables [] (latest :: earlier)))
  | some _ => none

end Entries

/-- A key with dots: the keys before the last dot, and the last one. -/
structure DottedKey where
  /-- The keys that lead to the last. -/
  path : List String
  key : String

namespace DottedKey

/-- The dotted key with the given parts, of which there is at least one. -/
def ofParts? (parts : List String) : Option DottedKey :=
  parts.getLast?.map fun key => ⟨parts.dropLast, key⟩

/-- All keys in order. -/
def parts (k : DottedKey) : List String := k.path ++ [k.key]

end DottedKey

/-- A document, and the table to which further keys belong. -/
structure Draft where
  root : Entries
  /-- The path of the last header. -/
  header : List String

namespace Draft

/-- Nothing said. -/
def empty : Draft := ⟨[], []⟩

/-- A header opens a table. -/
def openTable (d : Draft) (k : DottedKey) : Option Draft := do
  return ⟨← d.root.changeAt k.path (Entries.openTable k.key), k.parts⟩

/-- A header opens one more table of an array. -/
def openNextTable (d : Draft) (k : DottedKey) : Option Draft := do
  return ⟨← d.root.changeAt k.path (Entries.openNextTable k.key), k.parts⟩

/-- A key gets a value. -/
def assign (d : Draft) (k : DottedKey) (value : Value) : Option Draft := do
  return { d with root := ← d.root.changeAt d.header (·.putDotted k.path k.key value) }

end Draft

end OperationFeed.Toml
