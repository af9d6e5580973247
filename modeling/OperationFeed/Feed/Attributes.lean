import OperationFeed.Feed.Task

/-!
# Attributes of segments

Changes of attributes are accepted at once and carried out later, in tasks. What is stored may be
looked at at any time.
-/

namespace OperationFeed

namespace Feed

/-- Accept deltas to a segment's attributes. -/
def persistAttributes (segment : SegmentId) (deltas : List AttributeDelta) :
    Attempt Feed FeedLaunch := do
  requireOpen
  launchUnlessFault .persistAttributes (.persist segment deltas)

/-- Accept the sealing of a segment's attributes. -/
def sealAttributes (segment : SegmentId) : Attempt Feed FeedLaunch := do
  requireOpen
  launchUnlessFault .sealAttributes (.sealAttributes segment)

/-- Accept the deletion of a segment's attributes. -/
def deleteAttributes (segment : SegmentId) : Attempt Feed FeedLaunch := do
  requireOpen
  launchUnlessFault .deleteAttributes (.deleteAttributes segment)

/-- A copy of a segment's attributes. -/
def attributesOf (feed : Feed) (segment : SegmentId) : AttributeMap :=
  feed.attributes.snapshot segment

/-! ### Carrying out the changes -/

/-- Apply deltas to a segment's attributes. -/
def persistNow (segment : SegmentId) (deltas : List AttributeDelta) : Act Feed FeedResult := do
  let feed ← get
  match feed.attributes.apply segment deltas with
  | .error e => return .error (.ofAttributeError e)
  | .ok attributes =>
    set { feed with attributes }
    tell (.trace "attributes persisted"
      [("segment_id", .text segment.text), ("count", .number deltas.length)])
    return .ok .done

/-- Seal a segment's attributes. -/
def sealNow (segment : SegmentId) : Act Feed FeedResult := do
  modify fun feed => { feed with attributes := feed.attributes.sealAll segment }
  tell (.debug "attributes sealed" [("segment_id", .text segment.text)])
  return .ok .done

/-- Delete a segment's attributes. -/
def deleteNow (segment : SegmentId) : Act Feed FeedResult := do
  modify fun feed => { feed with attributes := feed.attributes.deleteAll segment }
  tell (.debug "attributes deleted" [("segment_id", .text segment.text)])
  return .ok .done

end Feed

end OperationFeed
