import OperationFeed.Feed.Basic

/-!
# Closing

A closed feed refuses everything new and gives up all waits. Closing again does nothing.
-/

namespace OperationFeed

namespace Feed

/-- Close the feed and cancel all who wait. -/
def close : Act Feed Unit := do
  if !(← get).isClosed then
    modify fun feed => { feed with isClosed := true }
    let cancelledReads ← resolveArrivals .cancelled
    let cancelledDrain ← resolveDrained .cancelled
    let container ← onMetadata Metadata.container
    tell (.debug "data source closed"
      [("container_id", .number container.toNat), ("cancelled_reads", .flag cancelledReads),
        ("cancelled_drain", .flag cancelledDrain)])

end Feed

end OperationFeed
