import OperationFeed.Segment
import OperationFeed.Attribute.Delta

/-!
# The attributes of all segments

Each segment's attributes are first absent, then live, then sealed, then deleted for good
(*tombstoned*), and never go back. Deltas are applied all or none:

* on absent or live attributes they take effect, and leave live attributes even if there are none;
* on sealed attributes only the empty list of deltas is accepted, for it changes nothing;
* on tombstoned attributes nothing is accepted.
-/

namespace OperationFeed

/-- The state of one segment's attributes, once they have been touched. -/
inductive AttributeState where
  -- Open to change.
  | live (attributes : AttributeMap)
  -- Frozen.
  | sealed (attributes : AttributeMap)
  -- Deleted for good.
  | tombstoned

/-- Why deltas were refused. -/
inductive AttributeError where
  -- The segment's attributes have been deleted.
  | segmentNotFound (segment : SegmentId)
  -- The segment's attributes are sealed.
  | segmentSealed (segment : SegmentId)
deriving DecidableEq

/-- The text of a refusal. -/
def AttributeError.message : AttributeError → String
  | .segmentNotFound segment => s!"attributes for {segment} have been deleted"
  | .segmentSealed segment => s!"attributes for {segment} are sealed"

/-- The attributes in a state: none once they are deleted. -/
def AttributeState.attributes : AttributeState → AttributeMap
  | .live attributes | .sealed attributes => attributes
  | .tombstoned => ∅

/-- The attribute states of all segments that have been touched. -/
structure AttributeStore where
  /-- State by segment; a segment that was never touched has none. -/
  segments : Table SegmentId AttributeState

namespace AttributeStore

/-- The store in which no segment has been touched. -/
def empty : AttributeStore := ⟨∅⟩

instance : EmptyCollection AttributeStore := ⟨empty⟩
instance : Inhabited AttributeStore := ⟨empty⟩

/-- The state of a segment's attributes, `none` if they were never touched. -/
def state? (store : AttributeStore) (segment : SegmentId) : Option AttributeState :=
  store.segments.get? segment

/-- A copy of a segment's attributes, empty if they are absent or deleted. -/
def snapshot (store : AttributeStore) (segment : SegmentId) : AttributeMap :=
  match store.state? segment with
  | some state => state.attributes
  | none => ∅

/-- The store with a new state for one segment. -/
def put (store : AttributeStore) (segment : SegmentId) (state : AttributeState) :
    AttributeStore :=
  ⟨store.segments.insert segment state⟩

/-- Apply deltas to a segment's attributes, all of them or none. -/
def apply (store : AttributeStore) (segment : SegmentId) (deltas : List AttributeDelta) :
    Except AttributeError AttributeStore :=
  match store.state? segment with
  | none => .ok (store.put segment (.live (AttributeMap.applyAll ∅ deltas)))
  | some (.live attributes) =>
    .ok (store.put segment (.live (AttributeMap.applyAll attributes deltas)))
  | some (.sealed _) =>
    -- no deltas, no change: that much is allowed
    if deltas.isEmpty then .ok store else .error (.segmentSealed segment)
  | some .tombstoned => .error (.segmentNotFound segment)

/-- Freeze a segment's attributes as they are: no attributes if there were none yet. Deleted
attributes stay deleted. -/
def sealAll (store : AttributeStore) (segment : SegmentId) : AttributeStore :=
  match store.state? segment with
  | some .tombstoned => store
  | _ => store.put segment (.sealed (store.snapshot segment))

/-- Delete a segment's attributes for good. -/
def deleteAll (store : AttributeStore) (segment : SegmentId) : AttributeStore :=
  store.put segment .tombstoned

end AttributeStore

end OperationFeed
