/-!
# Trace events

While it works, the feed tells what it does through *events*: a level, a message, named values,
and the *spans* of work that the event fell into.
-/

namespace OperationFeed

/-- How important an event is. -/
inductive TraceLevel where
  -- A detail.
  | trace
  -- A step of note.
  | debug
  -- Something that should not happen in normal use.
  | warn
deriving DecidableEq

/-- A value attached to an event. -/
inductive FieldValue where
  -- A number.
  | number (n : Nat)
  -- A truth value.
  | flag (b : Bool)
  -- A text.
  | text (s : String)
deriving DecidableEq

/-- Values by name. -/
abbrev Fields : Type := List (String × FieldValue)

/-- A stretch of work with a name. -/
structure Span where
  name : String
  /-- The values it is done with. -/
  fields : Fields
deriving DecidableEq

/-- Something that was done. -/
structure Event where
  level : TraceLevel
  message : String
  /-- The values it was done with. -/
  fields : Fields
  /-- The spans around it, outermost first. -/
  spans : List Span
deriving DecidableEq

namespace Event

/-- A detail. -/
def trace (message : String) (fields : Fields) : Event := ⟨.trace, message, fields, []⟩

/-- A step of note. -/
def debug (message : String) (fields : Fields) : Event := ⟨.debug, message, fields, []⟩

/-- A warning. -/
def warn (message : String) (fields : Fields) : Event := ⟨.warn, message, fields, []⟩

/-- The same event inside one more span. -/
def within (span : Span) (e : Event) : Event := { e with spans := span :: e.spans }

end Event

end OperationFeed
