import OperationFeed.Session.Answer

/-!
# Requests to a container's metadata

Requests go either through the facade, where they are recorded and traced, or to the store behind
it, where nobody takes note of them. The second kind is how a container's owner keeps its segments
up to date.
-/

namespace OperationFeed

/-- A request to the metadata of a container. -/
inductive MetadataRequest where
  -- Which container is it?
  | container
  -- Give out a sequence number.
  | next
  -- Which number was given out last?
  | current
  -- Record a log position for a number.
  | recordMarker (number : SequenceNumber) (address : LogAddress)
  -- Which log position is recorded for a number?
  | marker (number : SequenceNumber)
  -- Allow the log to be cut at a number.
  | setPoint (number : SequenceNumber)
  -- May the log be cut at a number?
  | isPoint (number : SequenceNumber)
  -- What is the greatest number up to this one at which the log may be cut?
  | closestPoint (number : SequenceNumber)
  -- Forget markers and points up to a number.
  | removeMarkers (upTo : SequenceNumber)
  -- What is known about a segment?
  | segment (segment : SegmentId)
  -- Register a segment, in the store.
  | mapSegment (segment : SegmentId) (name : String)
  -- Set a segment's length, in the store.
  | setLength (segment : SegmentId) (value : UInt64)
  -- Set the length of a segment's part in long-term storage, in the store.
  | setStorageLength (segment : SegmentId) (value : UInt64)
  -- Set a segment's first readable offset, in the store.
  | setStartOffset (segment : SegmentId) (value : UInt64)
  -- Mark a segment as sealed, in the store.
  | markSealed (segment : SegmentId)
  -- Mark a segment as deleted, in the store.
  | markDeleted (segment : SegmentId)
  -- Give a segment another name, in the store.
  | rename (segment : SegmentId) (name : String)
  -- Give out this number when one is asked for next.
  | forceNext (number : SequenceNumber)

namespace Metadata

/-- Change a segment in the store. -/
def editSegment (segment : SegmentId) (change : SegmentInfo → SegmentInfo) :
    Act Metadata (Option SegmentInfo) :=
  modifyGet fun m =>
    let (info, store) := m.store.updateSegment segment change
    (info, { m with store })

/-- Change a segment in the store, and say whether it is there. -/
def editSegment? (segment : SegmentId) (change : SegmentInfo → SegmentInfo) :
    Act Metadata Answer :=
  return .flag (← editSegment segment change).isSome

/-- Answer a request. -/
def answer : MetadataRequest → Act Metadata Answer
  | .container => return .number (← container).toNat
  | .next => return .number (← next).toNat
  | .current => return .number (← current).toNat
  | .recordMarker number address => do
    recordMarker number address
    return .nothing
  | .marker number => return .ofOption (fun a => .number a.sequence.toNat) (← marker? number)
  | .setPoint number => do
    setPoint number
    return .nothing
  | .isPoint number => return .flag (← isPoint number)
  | .closestPoint number => return .ofOption (fun n => .number n.toNat) (← closestPoint? number)
  | .removeMarkers upTo => do
    removeMarkers upTo
    return .nothing
  | .segment segment => return .ofOption .segment (← segment? segment)
  | .mapSegment segment name =>
    modifyGet fun m =>
      let (info, store) := m.store.mapSegment segment name
      (.segment info, { m with store })
  | .setLength segment value => editSegment? segment fun info => { info with length := value }
  | .setStorageLength segment value =>
    editSegment? segment fun info => { info with storageLength := value }
  | .setStartOffset segment value =>
    editSegment? segment fun info => { info with startOffset := value }
  | .markSealed segment => editSegment? segment fun info => { info with isSealed := true }
  | .markDeleted segment => editSegment? segment fun info => { info with isDeleted := true }
  | .rename segment name =>
    return .ofOption .segment (← editSegment segment fun info => { info with name := name })
  | .forceNext number => do
    forceNext number
    return .nothing

/-- The calls recorded so far, if calls are recorded. -/
def recordedCalls (m : Metadata) : Answer :=
  .ofOption (fun r => .calls r.calls) m.record

end Metadata

end OperationFeed
