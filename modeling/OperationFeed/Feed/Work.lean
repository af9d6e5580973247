import OperationFeed.Feed.Acknowledge
import OperationFeed.Feed.Attributes
import OperationFeed.Feed.Read

/-!
# The work of the feed's tasks

How an executor runs the tasks of a feed. Cutting the log and changing attributes take one turn;
those who wait are ready once their notification is resolved, and a reader also at its deadline.
-/

namespace OperationFeed

namespace FeedTask

/-- A turn of a task. -/
def turn (now : Nat) : FeedTask → Act Feed FeedTurn
  | .truncate upTo => do
    Feed.truncate upTo
    return .finished (.ok .done)
  | .persist segment deltas => return .finished (← Feed.persistNow segment deltas)
  | .sealAttributes segment => return .finished (← Feed.sealNow segment)
  | .deleteAttributes segment => return .finished (← Feed.deleteNow segment)
  | .read reader => Feed.readerTurn now reader
  | .awaitDrain waiter => Feed.awaitDrainTurn waiter

/-- Whether a waiting task is ready for a turn. -/
def isReady (feed : Feed) (now : Nat) : FeedTask → Bool
  | .read reader => (feed.arrivals.answer? reader.waiter).isSome || reader.isOverdue now
  | .awaitDrain waiter => (feed.drained.answer? waiter).isSome
  | _ => true

/-- The time at which a waiting task is ready in any case. -/
def deadline? : FeedTask → Option Nat
  | .read reader => reader.deadline
  | _ => none

/-- The end of an unfinished task: if it waited, it goes away. -/
def abandon : FeedTask → Act Feed Unit
  | .read reader =>
    modify fun feed => { feed with arrivals := feed.arrivals.leave reader.waiter }
  | .awaitDrain waiter =>
    modify fun feed => { feed with drained := feed.drained.leave waiter }
  | _ => return

instance : Work Feed FeedTask FeedResult where
  turn := turn
  isReady := isReady
  deadline? := deadline?
  abandon := abandon
  cancelled := .error .cancelled

end FeedTask

/-- A feed and the executor of its tasks. -/
abbrev FeedMachine : Type := Machine Feed FeedTask FeedResult

end OperationFeed
