import OperationFeed.Fragment.Map

/-!
# Fragments of all segments

The bytes of recent appends, kept per segment until all of them are dropped at once.
-/

namespace OperationFeed

/-- The fragments of every segment for which something was recorded. -/
structure FragmentStore where
  segments : Table SegmentId FragmentMap

namespace FragmentStore

/-- Nothing recorded. -/
def empty : FragmentStore := ⟨∅⟩

instance : EmptyCollection FragmentStore := ⟨empty⟩
instance : Inhabited FragmentStore := ⟨empty⟩

/-- The fragments of a segment, `none` if nothing was recorded for it. -/
def segment? (store : FragmentStore) (segment : SegmentId) : Option FragmentMap :=
  store.segments.get? segment

/-- Record a fragment of a segment. -/
def record (store : FragmentStore) (segment : SegmentId) (offset : UInt64) (data : Bytes) :
    FragmentStore :=
  ⟨store.segments.insert segment (((store.segment? segment).getD ∅).insert offset data)⟩

/-- The `length` bytes of a segment from `offset` on, if fragments hold them. -/
def read (store : FragmentStore) (segment : SegmentId) (offset : UInt64) (length : Nat) :
    Option Bytes := do
  (← store.segment? segment).read offset length

end FragmentStore

end OperationFeed
