import OperationFeed.Segment
import OperationFeed.Attribute.Delta

/-!
# Operations

An operation is one change of a container. It is made without a *sequence number*; the feed gives
it one when it enters the log, and nothing changes afterwards. A *checkpoint* is the operation up
to which a log may be cut.
-/

namespace OperationFeed

/-- The position of an operation in the log. -/
abbrev SequenceNumber : Type := UInt64

/-- A position in a durable log, recorded where the log may be cut. -/
structure LogAddress where
  sequence : SequenceNumber
deriving DecidableEq

/-- What an operation does. -/
inductive OperationKind where
  -- A snapshot of the container's metadata, the only place where a log may be cut.
  | checkpoint
  -- Bytes go into a segment at an offset.
  | append (segment : SegmentId) (offset : UInt64) (data : Bytes)
  -- A segment takes no more appends.
  | sealSegment (segment : SegmentId)
  -- A sealed segment becomes part of another.
  | merge (target source : SegmentId)
  -- Attributes of a segment change.
  | update (segment : SegmentId) (deltas : List AttributeDelta)
  -- A segment goes.
  | delete (segment : SegmentId)
  -- A mark in the sequence, without content.
  | probe
deriving DecidableEq

/-- A change of the container and the sequence number it got, if any. -/
structure Operation where
  /-- The number under which the operation entered the log. -/
  sequenceNumber : Option SequenceNumber
  kind : OperationKind
deriving DecidableEq

namespace Operation

/-- An operation that has no sequence number yet. -/
def ofKind (kind : OperationKind) : Operation := ⟨none, kind⟩

/-- A checkpoint that has no sequence number yet. -/
def checkpoint : Operation := ofKind .checkpoint

/-- The same operation under a sequence number. -/
def withNumber (op : Operation) (number : SequenceNumber) : Operation :=
  { op with sequenceNumber := some number }

/-- Whether a log may be cut here. -/
def isCheckpoint (op : Operation) : Bool := op.kind matches .checkpoint

/-- Whether the operation may be written to a durable log: all but probes. -/
def canSerialize (op : Operation) : Bool := !(op.kind matches .probe)

/-- The segment that changes, if one does; of a merge, its target. -/
def segment? (op : Operation) : Option SegmentId :=
  match op.kind with
  | .append segment _ _ | .sealSegment segment | .update segment _ | .delete segment => some segment
  | .merge target _ => some target
  | .checkpoint | .probe => none

/-- A short name for events. -/
def name (op : Operation) : String :=
  match op.kind with
  | .checkpoint => "metadata-checkpoint"
  | .append .. => "append"
  | .sealSegment _ => "seal"
  | .merge .. => "merge"
  | .update .. => "update-attributes"
  | .delete _ => "delete"
  | .probe => "probe"

end Operation

end OperationFeed
