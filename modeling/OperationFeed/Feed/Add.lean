import OperationFeed.Feed.Basic

/-!
# Adding operations

An added operation gets the next sequence number and goes to the end of the log. A checkpoint gets
its truncation marker before it can be seen in the log, so whoever sees it may already acknowledge
it. When enough numbers have been given out since the feed's last own checkpoint, it inserts another
before the operation that is being added.
-/

namespace OperationFeed

namespace Feed

/-- Whether the feed should insert a checkpoint now. -/
def checkpointDue (feed : Feed) : Bool :=
  match feed.config.autoCheckpointFrequency with
  | some frequency =>
    frequency.toNat ≤ feed.metadata.store.current.toNat - feed.lastAutoCheckpoint.toNat
  | none => false

/-- Number an operation and put it at the end of the log. The number is given out, and a checkpoint
is marked, even if the log then refuses the number. -/
def append (operation : Operation) : Attempt Feed SequenceNumber := do
  let number ← allocateNumber
  if operation.isCheckpoint then markCheckpoint number
  let feed ← get
  match feed.log.append number (operation.withNumber number) with
  | .error e => throw (.log e)
  | .ok log =>
    set { feed with log }
    tell (.trace "operation added"
      [("sequence", .number number.toNat), ("kind", .text operation.name)])
    return number

/-- Insert a checkpoint of the feed's own. -/
def insertCheckpoint : Attempt Feed Unit := do
  let number ← append .checkpoint
  modify fun feed => { feed with lastAutoCheckpoint := number }
  tell (.debug "auto-inserted metadata checkpoint" [("sequence", .number number.toNat)])

/-- Add an operation, after a checkpoint if one is due, and wake the readers. -/
def add (operation : Operation) : Attempt Feed SequenceNumber := do
  requireOpen
  if let some number := operation.sequenceNumber then throw (.alreadySequenced number)
  failAt .add
  if !operation.isCheckpoint && (← get).checkpointDue then insertCheckpoint
  let number ← append operation
  if ← resolveArrivals .completed then
    tell (.trace "woke readers waiting for add" [("sequence", .number number.toNat)])
  return number

end Feed

end OperationFeed
