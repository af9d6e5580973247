import OperationFeed.Feed.Task
import OperationFeed.Session.MetadataRequest

/-!
# What a session is made of

A session drives one feed by *calls*, which are answered at once, and by steps of the executor that
runs the feed's tasks. A call may be made from within a hook as well: the script of a hook is a list
of calls.
-/

namespace OperationFeed

/-- A place at which the feed hands control to its user. -/
inductive Hook where
  -- Before appended bytes are looked up.
  | appendData
  -- Before the metadata is asked for a segment.
  | segmentMetadata
  -- When a merge is complete.
  | mergeComplete
deriving DecidableEq

instance : Ranked Hook where
  rank
    | .appendData => 0
    | .segmentMetadata => 1
    | .mergeComplete => 2
  rank_injective {a b} h := by cases a <;> cases b <;> first | rfl | cases h

/-- A call whose result comes through a completion. -/
inductive AsyncCall where
  -- Read operations after a number, and wait for them.
  | read (after : SequenceNumber) (max : Nat) (timeout : Duration)
  -- Acknowledge operations up to a number.
  | acknowledge (upTo : SequenceNumber)
  -- Apply deltas to a segment's attributes.
  | persist (segment : SegmentId) (deltas : List AttributeDelta)
  -- Seal a segment's attributes.
  | sealAttributes (segment : SegmentId)
  -- Delete a segment's attributes.
  | deleteAttributes (segment : SegmentId)
  -- Wait until the log is empty.
  | awaitDrain

/-- A call on a session. -/
inductive Call where
  -- A request to the container's metadata.
  | metadata (request : MetadataRequest)
  -- Add an operation.
  | add (operation : Operation)
  -- Record the bytes of an append.
  | recordAppend (segment : SegmentId) (offset : UInt64) (data : Bytes)
  -- Forget all recorded bytes.
  | clearAppendData
  -- Look up the bytes of a range.
  | getAppendData (segment : SegmentId) (start : UInt64) (length : Nat)
  -- Tell that one segment has been merged into another.
  | completeMerge (target source : SegmentId)
  -- May the log be cut at a number?
  | isTruncationPoint (number : SequenceNumber)
  -- What is the greatest number up to this one at which the log may be cut?
  | closestTruncationPoint (number : SequenceNumber)
  -- What is known about a segment?
  | segmentMetadata (segment : SegmentId)
  -- What are a segment's attributes?
  | getAttributes (segment : SegmentId)
  -- Let acknowledgements cut the log, or not.
  | setAckEffective (effective : Bool)
  -- Close the feed.
  | close
  -- How was the feed configured?
  | config
  -- Which container does the feed serve?
  | container
  -- Make an injector and give it a name.
  | makeInjector (name : String) (injector : Injector)
  -- Install a named injector at a fault point, or remove the one there.
  | inject (point : FaultPoint) (name : Option String)
  -- How often was a named injector called, and how often did it strike?
  | injectorCounts (name : String)
  -- Which calls has the facade recorded?
  | recordedCalls
  -- Give a hook a script, or none.
  | setHook (hook : Hook) (script : Option (List Call))
  -- Make a call whose result comes through a completion.
  | async (call : AsyncCall)
  -- Drop the handle on a result.
  | drop (handle : Nat)

/-- A step of a session. -/
inductive SessionStep where
  -- Make a call.
  | call (call : Call)
  -- Run the tasks that are due.
  | run
  -- Move the clock by some milliseconds.
  | advance (milliseconds : Nat)
  -- End the executor and all its tasks.
  | shutdown

/-- Whether the tasks that are due may run right after the step. -/
def SessionStep.letsRun : SessionStep → Bool
  | .call _ | .run => true
  | .advance _ | .shutdown => false

end OperationFeed
