import OperationFeed.Feed.Basic

/-!
# Appended bytes

The bytes of an append may be recorded when it is added, and looked up until they have reached
long-term storage. A look-up is for a range of the segment that is neither in storage already, nor
trimmed, nor past the segment's end (`SegmentInfo.checkRange`); within these bounds the bytes may
still be missing.
-/

namespace OperationFeed

/-- Why a range of a segment cannot be looked up. -/
inductive RangeError where
  -- The range begins among bytes that are in long-term storage.
  | belowStorage (start storageLength : UInt64) (segment : SegmentId)
  -- The range begins among bytes that are trimmed.
  | beforeStart (start startOffset : UInt64) (segment : SegmentId)
  -- The range leads past the last offset there is.
  | overflow (start : UInt64)
  -- The range leads past the segment's end.
  | pastEnd (stop : Nat) (length : UInt64) (segment : SegmentId)
deriving DecidableEq

/-- The text that explains a refused range. -/
def RangeError.message : RangeError → String
  | .belowStorage start storageLength segment =>
    s!"start offset {start.toNat} is below the storage length {storageLength.toNat} of {segment}"
  | .beforeStart start startOffset segment =>
    s!"start offset {start.toNat} is before the start offset {startOffset.toNat} of {segment}"
  | .overflow start => s!"range overflows at offset {start.toNat}"
  | .pastEnd stop length segment =>
    s!"range end {stop} exceeds the length {length.toNat} of {segment}"

/-- Refuse a range that is not among a segment's outstanding bytes. -/
def SegmentInfo.checkRange (info : SegmentInfo) (start : UInt64) (length : Nat) :
    Except RangeError Unit :=
  let stop := start.toNat + length
  if start < info.storageLength then .error (.belowStorage start info.storageLength info.id)
  else if start < info.startOffset then .error (.beforeStart start info.startOffset info.id)
  else if offsetLimit ≤ stop then .error (.overflow start)
  else if info.length.toNat < stop then .error (.pastEnd stop info.length info.id)
  else .ok ()

namespace Feed

/-- Record the bytes of an append. -/
def recordAppend (segment : SegmentId) (offset : UInt64) (data : Bytes) : Attempt Feed Unit := do
  requireOpen
  tell (.trace "recording append data"
    [("segment_id", .text segment.text), ("offset", .number offset.toNat),
      ("length", .number data.length)])
  modify fun feed => { feed with fragments := feed.fragments.record segment offset data }

/-- Forget all recorded bytes, as if they had reached long-term storage. -/
def clearAppendData : Act Feed Unit := do
  modify fun feed => { feed with fragments := ∅ }
  tell (.debug "append data cleared" [])

/-- Let a look-up begin. -/
def admitLookup : Attempt Feed Unit := do
  requireOpen
  failAt .getAppendData

/-- Look up the bytes of a range, in a look-up that has begun. -/
def lookUpBytes (segment : SegmentId) (start : UInt64) (length : Nat) :
    Attempt Feed (Option Bytes) := do
  match ← segmentInfo? segment with
  | none => throw (.segmentNotFound segment)
  | some info =>
    match info.checkRange start length with
    | .error e => throw (.invalidArgument e.message)
    | .ok () =>
      let data := (← get).fragments.read segment start length
      if data.isNone then
        tell (.trace "append data not available"
          [("segment_id", .text segment.text), ("start_offset", .number start.toNat),
            ("length", .number length)])
      return data

end Feed

end OperationFeed
