import OperationFeed.Config
import OperationFeed.Fault.Points
import OperationFeed.Fragment.Store
import OperationFeed.Metadata.Facade
import OperationFeed.Wait.Slot

/-!
# The feed

A feed takes in the operations of one container, numbers them, and hands them to a reader until they
are acknowledged. Beside the log of operations it keeps the attributes of segments and the bytes of
recent appends. Sequence numbers and truncation points belong to the container's metadata, which the
feed uses through a facade.

This module holds the feed's state, and the steps that its operations are made of:

* `Feed.requireOpen` and `Feed.failAt` refuse an operation before it has any effect;
* `Feed.arrivals` is the slot of those who wait for the next operation, and `Feed.drained` the slot
  of those who wait until the log is empty.
-/

namespace OperationFeed

/-- The state of a feed. -/
structure Feed where
  metadata : Metadata
  config : Config
  /-- Whether acknowledgements cut the log, at the moment. -/
  ackEffective : Bool
  isClosed : Bool
  /-- The operations not yet cut off. -/
  log : Log Operation
  attributes : AttributeStore
  /-- The bytes of recent appends. -/
  fragments : FragmentStore
  /-- Where readers wait for the next operation. -/
  arrivals : WaitSlot
  /-- Where others wait for the log to drain. -/
  drained : WaitSlot
  /-- Which injector strikes where. -/
  faults : FaultPoints
  injectors : InjectorBank
  /-- The number of the last checkpoint that the feed inserted of its own, zero if none. -/
  lastAutoCheckpoint : SequenceNumber

namespace Feed

/-- A new feed over the metadata of its container. -/
def make (metadata : Metadata) (config : Config) : Except FeedError Feed :=
  match config.validate with
  | .error e => .error (.config e)
  | .ok () => .ok {
      metadata := metadata
      config := config
      ackEffective := config.ackEffective
      isClosed := false
      log := ∅
      attributes := ∅
      fragments := ∅
      arrivals := ∅
      drained := ∅
      faults := ∅
      injectors := ∅
      lastAutoCheckpoint := 0 }

/-! ### Acts on a part of the feed -/

/-- Tell of an event. -/
def tell (event : Event) : Act Feed Unit := Act.emit event

/-- Use the facade. -/
def onMetadata {α : Type} (a : Act Metadata α) : Act Feed α :=
  a.onPart Feed.metadata (fun feed metadata => { feed with metadata })

/-- Count a call at a fault point: the error, if one strikes. -/
def checkFault (point : FaultPoint) : Act Feed (Option FeedError) := do
  let faults := (← get).faults
  (faults.check point).onPart Feed.injectors (fun feed injectors => { feed with injectors })

/-- Resolve the notification of those who wait for an operation, and say whether there was one. -/
def resolveArrivals (outcome : WaitOutcome) : Act Feed Bool :=
  modifyGet fun feed =>
    let (woken, arrivals) := feed.arrivals.resolve outcome
    (woken, { feed with arrivals })

/-- Resolve the notification of those who wait for the log to drain, and say whether there was
one. -/
def resolveDrained (outcome : WaitOutcome) : Act Feed Bool :=
  modifyGet fun feed =>
    let (woken, drained) := feed.drained.resolve outcome
    (woken, { feed with drained })

/-! ### The metadata, as the feed uses it -/

/-- Give out a sequence number. -/
def allocateNumber : Act Feed SequenceNumber := onMetadata Metadata.next

/-- Allow the log to be cut at a checkpoint. -/
def markCheckpoint (number : SequenceNumber) : Act Feed Unit := do
  onMetadata (Metadata.recordMarker number ⟨number⟩)
  onMetadata (Metadata.setPoint number)

/-- Whether the log may be cut at a number. -/
def isTruncationPoint (number : SequenceNumber) : Act Feed Bool :=
  onMetadata (Metadata.isPoint number)

/-- The greatest number up to the given one at which the log may be cut. -/
def closestTruncationPoint? (number : SequenceNumber) : Act Feed (Option SequenceNumber) :=
  onMetadata (Metadata.closestPoint? number)

/-- What the metadata knows about a segment. -/
def segmentInfo? (segment : SegmentId) : Act Feed (Option SegmentInfo) :=
  onMetadata (Metadata.segment? segment)

/-! ### Refusals -/

/-- Refuse to go on once the feed is closed. -/
def requireOpen : Attempt Feed Unit := do
  if (← get).isClosed then throw .closed

/-- Refuse to go on if a fault strikes. -/
def failAt (point : FaultPoint) : Attempt Feed Unit := do
  if let some error ← checkFault point then throw error

end Feed

end OperationFeed
