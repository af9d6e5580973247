import OperationFeed.Config
import OperationFeed.Metadata.Facade

/-!
# Answers

What the requests of a session are answered with.
-/

namespace OperationFeed

/-- An answer to a request. -/
inductive Answer where
  -- There is nothing to say, or nothing there.
  | nothing
  -- A number.
  | number (n : Nat)
  -- Yes or no.
  | flag (b : Bool)
  -- A run of bytes.
  | bytes (data : Bytes)
  -- What is known about a segment.
  | segment (info : SegmentInfo)
  -- The attributes of a segment.
  | attributes (attributes : AttributeMap)
  -- A configuration.
  | config (config : Config)
  -- The calls that a facade has recorded.
  | calls (calls : List MetadataCall)
  -- How often an injector was called, and how often it struck.
  | counts (calls injected : Nat)
  -- The handle on a result to come.
  | handle (handle : Nat)
  -- Success, with an answer.
  | success (answer : Answer)
  -- Failure.
  | failure (error : FeedError)

namespace Answer

/-- The answer for something that may be missing. -/
def ofOption {α : Type} (f : α → Answer) : Option α → Answer
  | some a => f a
  | none => .nothing

/-- The answer for something that may have failed. -/
def ofResult {α : Type} (f : α → Answer) : Except FeedError α → Answer
  | .ok a => .success (f a)
  | .error e => .failure e

end Answer

end OperationFeed
