import OperationFeed.Table

/-!
# Segments

A *segment* is an append-only sequence of bytes that belongs to a *container*. It is named by a
`SegmentId`, and what is known about it at one moment is a `SegmentInfo`: how many bytes it has,
how many of them are in long-term storage, and where its readable part begins.
-/

namespace OperationFeed

/-- A run of bytes. -/
abbrev Bytes : Type := List UInt8

/-- The number of a container, the owner of a set of segments. -/
abbrev ContainerId : Type := UInt32

/-- The number of a segment within its container. -/
structure SegmentId where
  val : UInt64
deriving DecidableEq

namespace SegmentId

instance : Ranked SegmentId where
  rank s := s.val.toNat
  rank_injective {a b} h := by
    cases a; cases b; simp_all [UInt64.toNat_inj]

/-- The text by which messages name a segment. -/
def text (s : SegmentId) : String := s!"segment-{s.val.toNat}"

instance : ToString SegmentId := ⟨text⟩

end SegmentId

/-- What is known about a segment at one moment. Bytes below `storageLength` are in long-term
storage, and bytes below `startOffset` may be gone. Nothing here ties the three numbers together:
whoever maintains the segment sets each on its own. -/
structure SegmentInfo where
  id : SegmentId
  /-- The name under which the segment was created. -/
  name : String
  /-- The container that owns the segment. -/
  container : ContainerId
  /-- How many bytes were ever appended. -/
  length : UInt64
  /-- The offset below which the bytes are in long-term storage. -/
  storageLength : UInt64
  /-- The first offset that can still be read. -/
  startOffset : UInt64
  /-- No further appends are accepted. -/
  isSealed : Bool
  /-- The segment is gone. -/
  isDeleted : Bool
deriving DecidableEq

namespace SegmentInfo

/-- A new segment, without bytes. -/
def fresh (id : SegmentId) (name : String) (container : ContainerId) : SegmentInfo where
  id := id
  name := name
  container := container
  length := 0
  storageLength := 0
  startOffset := 0
  isSealed := false
  isDeleted := false

/-- How many bytes were appended and are not yet in long-term storage; none if storage is ahead. -/
def outstandingLength (info : SegmentInfo) : Nat :=
  info.length.toNat - info.storageLength.toNat

end SegmentInfo

end OperationFeed
