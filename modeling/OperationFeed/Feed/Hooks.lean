import OperationFeed.Feed.AppendData

/-!
# Calls that run a hook

Three calls hand control to a hook of the caller's before they answer. The hook may do
anything, also to the feed itself, so these calls are given for every monad in which the feed
can act: with `Act Feed` as that monad a hook is some act on the feed, and with a larger state
it may reach further.
-/

namespace OperationFeed

namespace Feed

variable {m : Type → Type} [Monad m] [MonadLiftT (Act Feed) m]

/-- The bytes of a range that has not reached long-term storage, `none` if they are not here. The
hook runs before they are looked up, once the call is past its fault point. -/
def getAppendData (hook : m Unit) (segment : SegmentId) (start : UInt64) (length : Nat) :
    m (Except FeedError (Option Bytes)) := do
  match ← liftM admitLookup.tryOut with
  | .error e => return .error e
  | .ok () =>
    hook
    liftM (lookUpBytes segment start length).tryOut

/-- What the metadata knows about a segment. The hook runs before it is asked. -/
def segmentMetadata (hook : m Unit) (segment : SegmentId) : m (Option SegmentInfo) := do
  hook
  liftM (segmentInfo? segment)

/-- Tell the hook that one segment has been merged into another. -/
def completeMerge (hook : m Unit) : m (Except FeedError Unit) := do
  match ← liftM requireOpen.tryOut with
  | .error e => return .error e
  | .ok () =>
    hook
    return .ok ()

end Feed

end OperationFeed
