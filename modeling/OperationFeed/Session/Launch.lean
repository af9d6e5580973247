import OperationFeed.Feed.Work
import OperationFeed.Session.Call

/-!
# Calls that are answered later

A call whose result comes through a completion is an attempt on the feed, made at the executor's
time. If the feed accepts it, what it leads to is started, and the answer is the handle on its
result.
-/

namespace OperationFeed

namespace AsyncCall

/-- What the feed does with a call that is made at a given time. -/
def attempt (now : Nat) : AsyncCall → Attempt Feed FeedLaunch
  | .read after max timeout => Feed.read now after max timeout
  | .acknowledge upTo => Feed.acknowledge upTo
  | .persist segment deltas => Feed.persistAttributes segment deltas
  | .sealAttributes segment => Feed.sealAttributes segment
  | .deleteAttributes segment => Feed.deleteAttributes segment
  | .awaitDrain => Feed.awaitDrain

/-- Make a call: the handle on its result, if the feed accepts it. -/
def perform (call : AsyncCall) : Act FeedMachine (Except FeedError Handle) := do
  let now := (← get).executor.clock
  match ← Machine.onState (call.attempt now).tryOut with
  | .error e => return .error e
  | .ok launch => return .ok (← Machine.start launch)

end AsyncCall

end OperationFeed
