import OperationFeed.Operation

/-!
# Container metadata

What a container remembers outside its log: the last sequence number it gave out, the log positions
recorded for checkpoints (*truncation markers*), the numbers at which the log may be cut
(*truncation points*), and its segments.

Markers and points are kept apart: each is recorded by a call of its own, and only
`MetadataStore.removeMarkers` removes both.
-/

namespace OperationFeed

/-- The metadata of one container. -/
structure MetadataStore where
  container : ContainerId
  /-- The sequence number given out last, zero if none was. -/
  current : SequenceNumber
  /-- Log positions by the sequence number they were recorded for. -/
  markers : Table SequenceNumber LogAddress
  /-- The sequence numbers at which the log may be cut. -/
  points : Table SequenceNumber Unit
  segments : Table SegmentId SegmentInfo

namespace MetadataStore

/-- The metadata of a new container. -/
def fresh (container : ContainerId) : MetadataStore := ⟨container, 0, ∅, ∅, ∅⟩

/-! ### Sequence numbers and truncation -/

/-- Give out the next sequence number. -/
def next (store : MetadataStore) : SequenceNumber × MetadataStore :=
  (store.current + 1, { store with current := store.current + 1 })

/-- Record the log position of a sequence number. -/
def recordMarker (store : MetadataStore) (number : SequenceNumber) (address : LogAddress) :
    MetadataStore :=
  { store with markers := store.markers.insert number address }

/-- The log position recorded for a sequence number. -/
def marker? (store : MetadataStore) (number : SequenceNumber) : Option LogAddress :=
  store.markers.get? number

/-- How many log positions are recorded. -/
def markerCount (store : MetadataStore) : Nat := store.markers.size

/-- Allow the log to be cut at a number. -/
def setPoint (store : MetadataStore) (number : SequenceNumber) : MetadataStore :=
  { store with points := store.points.insert number () }

/-- Whether the log may be cut at a number. -/
def isPoint (store : MetadataStore) (number : SequenceNumber) : Bool :=
  store.points.contains number

/-- The greatest number up to the given one at which the log may be cut. -/
def closestPoint? (store : MetadataStore) (number : SequenceNumber) : Option SequenceNumber :=
  (store.points.floor? number).map (·.1)

/-- Forget the markers and truncation points up to a number. -/
def removeMarkers (store : MetadataStore) (upTo : SequenceNumber) : MetadataStore :=
  { store with
    markers := store.markers.retain (fun number => upTo < number)
    points := store.points.retain (fun number => upTo < number) }

/-! ### Segments -/

/-- What is known about a segment. -/
def segment? (store : MetadataStore) (segment : SegmentId) : Option SegmentInfo :=
  store.segments.get? segment

/-- Register a new segment without bytes, in place of what was known under its number. -/
def mapSegment (store : MetadataStore) (segment : SegmentId) (name : String) :
    SegmentInfo × MetadataStore :=
  let info := SegmentInfo.fresh segment name store.container
  (info, { store with segments := store.segments.insert segment info })

/-- Change what is known about a segment, if anything is: the new state of knowledge. -/
def updateSegment (store : MetadataStore) (segment : SegmentId)
    (change : SegmentInfo → SegmentInfo) : Option SegmentInfo × MetadataStore :=
  match store.segment? segment with
  | none => (none, store)
  | some info =>
    (some (change info), { store with segments := store.segments.insert segment (change info) })

end MetadataStore

end OperationFeed
