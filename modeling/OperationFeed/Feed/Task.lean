import OperationFeed.Executor.Machine
import OperationFeed.Feed.Basic

/-!
# Tasks of the feed

What an accepted call leaves to be done later: cutting the log, changing attributes, or waiting for
something. The call's completion resolves with what the task gives.
-/

namespace OperationFeed

/-- A read that waits until there is something to read. -/
structure Reader where
  /-- Only operations with greater numbers are read. -/
  after : SequenceNumber
  /-- At most so many are read. -/
  max : Nat
  /-- The time at which the read gives up, if it ever does. -/
  deadline : Option Nat
  /-- The time that was allowed for the read. -/
  timeout : Duration
  /-- The reader's place among those who wait for an operation. -/
  waiter : Waiter
deriving DecidableEq

/-- What is left to be done. -/
inductive FeedTask where
  -- Cut the log up to an acknowledged number.
  | truncate (upTo : SequenceNumber)
  -- Apply deltas to a segment's attributes.
  | persist (segment : SegmentId) (deltas : List AttributeDelta)
  -- Seal a segment's attributes.
  | sealAttributes (segment : SegmentId)
  -- Delete a segment's attributes.
  | deleteAttributes (segment : SegmentId)
  -- Wait for operations, and read them.
  | read (reader : Reader)
  -- Wait for the log to drain.
  | awaitDrain (waiter : Waiter)
deriving DecidableEq

/-- What a completion gives when it succeeds. -/
inductive Payload where
  -- The thing is done.
  | done
  -- The operations that were read.
  | batch (operations : List Operation)
deriving DecidableEq

/-- What a completion gives. -/
abbrev FeedResult : Type := Except FeedError Payload

/-- What an accepted call leads to: a result at once, or a task. -/
abbrev FeedLaunch : Type := Launch FeedTask FeedResult

/-- What a turn of a task leads to. -/
abbrev FeedTurn : Type := Turn FeedTask FeedResult

/-- Start a task, unless an asynchronous fault strikes: then the completion has failed already. -/
def Feed.launchUnlessFault (point : FaultPoint) (task : FeedTask) : Attempt Feed FeedLaunch := do
  match ← Feed.checkFault point with
  | some error => return .ready (.error error)
  | none => return .task task

end OperationFeed
