import OperationFeed.Feed.Task

/-!
# Acknowledging operations

An acknowledgement names a checkpoint up to which everything has been consumed, and lets the feed
cut the log there. Acknowledgements may be made ineffective, and then leave the log as it is.
Whoever waits for the log to drain is told when an acknowledgement reaches its end, be it effective
or not.
-/

namespace OperationFeed

namespace Feed

/-- Accept an acknowledgement, if the log may be cut there. -/
def acknowledge (upTo : SequenceNumber) : Attempt Feed FeedLaunch := do
  requireOpen
  if !(← isTruncationPoint upTo) then throw (.invalidTruncationPoint upTo)
  failAt .ackSync
  launchUnlessFault .ackAsync (.truncate upTo)

/-- Whether no operation in the log has a number above the given one. -/
def isDrainedBy (feed : Feed) (upTo : SequenceNumber) : Bool :=
  feed.log.lastNumber?.all (· ≤ upTo)

/-- Carry out an acknowledgement. -/
def truncate (upTo : SequenceNumber) : Act Feed Unit := do
  let feed ← get
  if feed.ackEffective then
    let (removed, log) := feed.log.truncate upTo
    set { feed with log }
    onMetadata (Metadata.removeMarkers upTo)
    tell (.debug "log truncated" [("up_to", .number upTo.toNat), ("removed", .number removed)])
  else
    tell (.debug "acknowledgement ineffective, log left untouched"
      [("up_to", .number upTo.toNat)])
  -- an ineffective acknowledgement leaves entries behind, so the last number decides
  if (← get).isDrainedBy upTo then
    if ← resolveDrained .completed then
      tell (.debug "log fully acknowledged" [("up_to", .number upTo.toNat)])

/-- Wait until the log is empty: at once if it is and nobody else waits for it, and otherwise with
the others. -/
def awaitDrain : Attempt Feed FeedLaunch := do
  requireOpen
  let feed ← get
  if !feed.drained.isPending && feed.log.isEmpty then
    return .ready (.ok .done)
  else
    let (waiter, drained) := feed.drained.join
    set { feed with drained }
    return .task (.awaitDrain waiter)

/-- A turn of one who waits for the log to drain. -/
def awaitDrainTurn (waiter : Waiter) : Act Feed FeedTurn := do
  match (← get).drained.answer? waiter with
  | none => return .parked (.awaitDrain waiter)
  | some .completed => return .finished (.ok .done)
  | some .cancelled => return .finished (.error .cancelled)

end Feed

end OperationFeed
