import OperationFeed.Metadata.Store
import OperationFeed.Trace.Act

/-!
# The metadata facade

The feed sees the metadata of its container through a facade. Under every facade there is a
`MetadataStore`, which does the work. A facade may in addition

* keep a *call record*: it writes down the calls that change or look up something, and may be told
  to give out a certain number the next time one is asked for, past the store's counter;
* be *traced*: it tells of what was done, after it was done.
-/

namespace OperationFeed

/-- A call that a record keeps. -/
inductive MetadataCall where
  -- A sequence number was given out.
  | next (allocated : SequenceNumber)
  -- A truncation marker was recorded.
  | recordMarker (number : SequenceNumber)
  -- A truncation point was set.
  | setPoint (number : SequenceNumber)
  -- Markers and points were removed.
  | removeMarkers (upTo : SequenceNumber)
  -- A segment was looked up.
  | segment (segment : SegmentId)
deriving DecidableEq

/-- The calls made to a facade. -/
structure CallRecord where
  /-- The calls, latest first. -/
  latestFirst : List MetadataCall
  /-- The number to give out next, in place of a fresh one. -/
  forced : Option SequenceNumber
deriving DecidableEq

namespace CallRecord

/-- The calls, in order. -/
def calls (r : CallRecord) : List MetadataCall := r.latestFirst.reverse

/-- Write down one more call. -/
def note (r : CallRecord) (call : MetadataCall) : CallRecord :=
  { r with latestFirst := call :: r.latestFirst }

@[simp] theorem calls_mk_nil (forced : Option SequenceNumber) : (mk [] forced).calls = [] := rfl

@[simp] theorem calls_note (r : CallRecord) (call : MetadataCall) :
    (r.note call).calls = r.calls ++ [call] := List.reverse_cons

@[simp] theorem forced_note (r : CallRecord) (call : MetadataCall) :
    (r.note call).forced = r.forced := rfl

@[simp] theorem calls_setForced (r : CallRecord) (forced : Option SequenceNumber) :
    { r with forced }.calls = r.calls := rfl

end CallRecord

/-- The metadata of a container as the feed sees it. -/
structure Metadata where
  store : MetadataStore
  /-- The calls made, if they are recorded. -/
  record : Option CallRecord
  /-- Whether the facade tells what it does. -/
  traced : Bool

namespace Metadata

/-- Which facade stands before the store. -/
inductive Facade where
  -- The store alone.
  | plain
  -- A call record.
  | recorded
  -- Events.
  | traced
  -- Events, and a call record.
  | tracedRecorded
deriving DecidableEq

/-- The metadata of a new container behind a facade. -/
def fresh (facade : Facade) (container : ContainerId) : Metadata where
  store := .fresh container
  record := if facade matches .recorded | .tracedRecorded then some ⟨[], none⟩ else none
  traced := facade matches .traced | .tracedRecorded

/-! ### Parts of a call -/

/-- Write a call into the record, if there is one. -/
def noteCall (call : MetadataCall) : Act Metadata Unit :=
  modify fun m => { m with record := m.record.map (·.note call) }

/-- Tell of an event, if the facade is traced. -/
def tell (event : Event) : Act Metadata Unit := do
  if (← get).traced then Act.emit event

/-- Change the store. -/
def changeStore (change : MetadataStore → MetadataStore) : Act Metadata Unit :=
  modify fun m => { m with store := change m.store }

/-! ### The calls -/

/-- The number to give out: the forced one, once, and otherwise the store's next. -/
def allocate (m : Metadata) : SequenceNumber × Metadata :=
  match m.record with
  | some ⟨latestFirst, some forced⟩ => (forced, { m with record := some ⟨latestFirst, none⟩ })
  | _ =>
    let (number, store) := m.store.next
    (number, { m with store })

/-- Give out a sequence number. -/
def next : Act Metadata SequenceNumber := do
  let number ← modifyGet allocate
  noteCall (.next number)
  let container := (← get).store.container
  tell (.trace "sequence number allocated"
    [("container_id", .number container.toNat), ("sequence", .number number.toNat)])
  return number

/-- The sequence number given out last. -/
def current : Act Metadata SequenceNumber := return (← get).store.current

/-- The container's number. -/
def container : Act Metadata ContainerId := return (← get).store.container

/-- Record the log position of a checkpoint. -/
def recordMarker (number : SequenceNumber) (address : LogAddress) : Act Metadata Unit :=
  Act.within ⟨"metadata.record_truncation_marker", [("sequence", .number number.toNat)]⟩ do
    noteCall (.recordMarker number)
    changeStore (·.recordMarker number address)
    tell (.debug "truncation marker recorded" [("address", .number address.sequence.toNat)])

/-- The log position recorded for a checkpoint. -/
def marker? (number : SequenceNumber) : Act Metadata (Option LogAddress) :=
  return (← get).store.marker? number

/-- Allow the log to be cut at a number. -/
def setPoint (number : SequenceNumber) : Act Metadata Unit := do
  noteCall (.setPoint number)
  changeStore (·.setPoint number)
  tell (.debug "valid truncation point set" [("sequence", .number number.toNat)])

/-- Whether the log may be cut at a number. -/
def isPoint (number : SequenceNumber) : Act Metadata Bool := do
  let valid := (← get).store.isPoint number
  tell (.trace "checked truncation point"
    [("sequence", .number number.toNat), ("valid", .flag valid)])
  return valid

/-- The greatest number up to the given one at which the log may be cut. -/
def closestPoint? (number : SequenceNumber) : Act Metadata (Option SequenceNumber) :=
  return (← get).store.closestPoint? number

/-- Forget the markers and truncation points up to a number. -/
def removeMarkers (upTo : SequenceNumber) : Act Metadata Unit :=
  Act.within ⟨"metadata.remove_truncation_markers", [("up_to", .number upTo.toNat)]⟩ do
    noteCall (.removeMarkers upTo)
    changeStore (·.removeMarkers upTo)
    tell (.debug "truncation markers removed" [])

/-- What is known about a segment. -/
def segment? (segment : SegmentId) : Act Metadata (Option SegmentInfo) := do
  noteCall (.segment segment)
  let info := (← get).store.segment? segment
  if info.isNone then
    tell (.warn "segment metadata not found" [("segment_id", .text segment.text)])
  return info

/-- Give out this number the next time one is asked for, if the facade keeps a record. -/
def forceNext (number : SequenceNumber) : Act Metadata Unit :=
  modify fun m => { m with record := m.record.map fun r => { r with forced := some number } }

end Metadata

end OperationFeed
