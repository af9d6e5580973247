import OperationFeed.Proofs.Metadata
import OperationFeed.Feed.AppendData
import OperationFeed.Session.Launch

/-!
# The core of a feed

Numbering, reading and acknowledging depend on a part of the feed only, its *core*: the counter and
the truncation points of the metadata, the log, the two slots, and a few flags. Everything else that
a feed holds (attributes, recorded bytes, injectors, segments) changes without any of this being
touched, and `Feed.SameCore` says so for a step:

* counting a call at a fault point, whether the fault strikes (`Feed.strike`) or not
  (`Feed.SameCore.counted`);
* every refusal of a call, and every call on attributes, recorded bytes and segments.

A property of the core therefore needs an argument only for the steps of `Feed.Stream` and
`Feed.Waiting`.
-/

namespace OperationFeed

namespace Feed

/-- Two feeds with the same core. -/
structure SameCore (feed feed' : Feed) : Prop where
  current : feed'.metadata.store.current = feed.metadata.store.current
  markers : feed'.metadata.store.markers = feed.metadata.store.markers
  points : feed'.metadata.store.points = feed.metadata.store.points
  /-- The calls in a record may be more, but the next number is forced or not as before. -/
  forced : feed'.metadata.record.map (·.forced) = feed.metadata.record.map (·.forced)
  config : feed'.config = feed.config
  ackEffective : feed'.ackEffective = feed.ackEffective
  isClosed : feed'.isClosed = feed.isClosed
  log : feed'.log = feed.log
  arrivals : feed'.arrivals = feed.arrivals
  drained : feed'.drained = feed.drained
  lastAutoCheckpoint : feed'.lastAutoCheckpoint = feed.lastAutoCheckpoint

namespace SameCore

theorem refl (feed : Feed) : SameCore feed feed :=
  ⟨rfl, rfl, rfl, rfl, rfl, rfl, rfl, rfl, rfl, rfl, rfl⟩

theorem trans {feed₁ feed₂ feed₃ : Feed} (h : SameCore feed₁ feed₂) (h' : SameCore feed₂ feed₃) :
    SameCore feed₁ feed₃ where
  current := h'.current.trans h.current
  markers := h'.markers.trans h.markers
  points := h'.points.trans h.points
  forced := h'.forced.trans h.forced
  config := h'.config.trans h.config
  ackEffective := h'.ackEffective.trans h.ackEffective
  isClosed := h'.isClosed.trans h.isClosed
  log := h'.log.trans h.log
  arrivals := h'.arrivals.trans h.arrivals
  drained := h'.drained.trans h.drained
  lastAutoCheckpoint := h'.lastAutoCheckpoint.trans h.lastAutoCheckpoint

variable {feed feed' : Feed} (h : SameCore feed feed')

include h

/-- With the same core, the same numbers are truncation points. -/
theorem isPoint (number : SequenceNumber) :
    feed'.metadata.store.isPoint number = feed.metadata.store.isPoint number := by
  rw [MetadataStore.isPoint, h.points, MetadataStore.isPoint]

/-- With the same core, both facades keep a record or neither does. -/
theorem record_eq_none : feed'.metadata.record = none ↔ feed.metadata.record = none := by
  -- a record is there exactly if there is something to say of what it forces
  rw [← Option.map_eq_none_iff (f := fun r : CallRecord => r.forced), h.forced,
    Option.map_eq_none_iff]

end SameCore

/-! ### Refusals -/

/-- The error of the fault that strikes at a point, if the injector there would strike now. -/
def strike (feed : Feed) (point : FaultPoint) : Option FeedError :=
  ((checkFault point).effect feed).1

/-- The feed once a call at a fault point is counted. -/
def counted (feed : Feed) (point : FaultPoint) : Feed := ((checkFault point).effect feed).2

@[simp] theorem effect_checkFault (feed : Feed) (point : FaultPoint) :
    (checkFault point).effect feed = (feed.strike point, feed.counted point) := (rfl)

/-- Counting a call changes the injectors and nothing else. -/
theorem SameCore.counted (feed : Feed) (point : FaultPoint) : SameCore feed (feed.counted point) :=
  ⟨rfl, rfl, rfl, rfl, rfl, rfl, rfl, rfl, rfl, rfl, rfl⟩

@[simp] theorem effect_tell (event : Event) (feed : Feed) :
    (tell event).effect feed = ((), feed) := (rfl)

@[simp] theorem effect_onMetadata {α : Type} (a : Act Metadata α) (feed : Feed) :
    (onMetadata a).effect feed =
      ((a.effect feed.metadata).1, { feed with metadata := (a.effect feed.metadata).2 }) := (rfl)

/-- The check for an open feed changes nothing. -/
@[simp] theorem effect_requireOpen (feed : Feed) :
    requireOpen.effect feed = (if feed.isClosed then .error .closed else .ok (), feed) := by
  cases h : feed.isClosed <;> simp [requireOpen, Attempt.effect_bind, h]

/-- The check for an open feed fails in a closed one, which stays as it was. -/
theorem run_requireOpen_of_closed {feed : Feed} (h : feed.isClosed = true) :
    requireOpen.run feed = ⟨.error .closed, feed, []⟩ := by
  simp [requireOpen, Attempt.run_bind, h]

/-- What only an open feed does ends at once in a closed one, and nothing is told. -/
theorem run_requireOpen_bind {α : Type} {feed : Feed} (h : feed.isClosed = true)
    (rest : Unit → Attempt Feed α) :
    (requireOpen >>= rest).run feed = ⟨.error .closed, feed, []⟩ := by
  rw [Attempt.run_bind, run_requireOpen_of_closed h]

/-- A call that fails at a fault point is counted there, and fails if the fault strikes. -/
@[simp] theorem effect_failAt (feed : Feed) (point : FaultPoint) :
    (failAt point).effect feed =
      ((feed.strike point).elim (.ok ()) .error, feed.counted point) := by
  cases h : feed.strike point <;> simp [failAt, Attempt.effect_bind, h]

/-- A task is launched unless the fault strikes; then its error is the outcome, ready at once. -/
@[simp] theorem effect_launchUnlessFault (feed : Feed) (point : FaultPoint) (task : FeedTask) :
    (launchUnlessFault point task).effect feed =
      (.ok ((feed.strike point).elim (.task task) fun e => .ready (.error e)),
        feed.counted point) := by
  cases h : feed.strike point <;> simp [launchUnlessFault, Attempt.effect_bind, h]

/-! ### Calls outside the core -/

/-- Bytes are recorded for an open feed only. -/
theorem effect_recordAppend (segment : SegmentId) (offset : UInt64) (data : Bytes) (feed : Feed) :
    (recordAppend segment offset data).effect feed =
      if feed.isClosed then (.error .closed, feed)
      else (.ok ⟨⟩, { feed with fragments := feed.fragments.record segment offset data }) := by
  cases h : feed.isClosed <;> simp [recordAppend, Attempt.effect_bind, h]

theorem SameCore.recordAppend (segment : SegmentId) (offset : UInt64) (data : Bytes) (feed : Feed) :
    SameCore feed ((recordAppend segment offset data).effect feed).2 := by
  rw [effect_recordAppend]
  split
  · exact refl feed
  · exact ⟨rfl, rfl, rfl, rfl, rfl, rfl, rfl, rfl, rfl, rfl, rfl⟩

theorem SameCore.clearAppendData (feed : Feed) :
    SameCore feed (Feed.clearAppendData.effect feed).2 :=
  ⟨rfl, rfl, rfl, rfl, rfl, rfl, rfl, rfl, rfl, rfl, rfl⟩

/-- A look-up is admitted by an open feed, unless the fault of look-ups strikes. -/
theorem effect_admitLookup (feed : Feed) :
    admitLookup.effect feed =
      if feed.isClosed then (.error .closed, feed)
      else ((feed.strike .getAppendData).elim (.ok ⟨⟩) .error, feed.counted .getAppendData) := by
  cases h : feed.isClosed <;> simp [admitLookup, Attempt.effect_bind, h]

theorem SameCore.admitLookup (feed : Feed) : SameCore feed (Feed.admitLookup.effect feed).2 := by
  rw [effect_admitLookup]
  split
  · exact refl feed
  · exact counted feed .getAppendData

/-- The feed once a segment was looked up: there is one call more in the record, if there is one. -/
def lookedUp (feed : Feed) (segment : SegmentId) : Feed :=
  { feed with metadata := { feed.metadata with
      record := feed.metadata.record.map (·.note (.segment segment)) } }

@[simp] theorem effect_segmentInfo? (segment : SegmentId) (feed : Feed) :
    (segmentInfo? segment).effect feed =
      (feed.metadata.store.segment? segment, feed.lookedUp segment) := by
  rw [segmentInfo?, effect_onMetadata, Metadata.effect_segment?]
  rfl

/-- To look a segment up is at most written down in the record. -/
theorem SameCore.lookedUp (segment : SegmentId) (feed : Feed) :
    SameCore feed (feed.lookedUp segment) := by
  refine ⟨rfl, rfl, rfl, ?_, rfl, rfl, rfl, rfl, rfl, rfl, rfl⟩
  -- noting a call keeps the number that is forced
  simp [Feed.lookedUp, Function.comp_def]

/-- A look-up is for a segment that is mapped, and for bytes of it that are outstanding. -/
theorem effect_lookUpBytes (segment : SegmentId) (start : UInt64) (length : Nat) (feed : Feed) :
    (lookUpBytes segment start length).effect feed =
      (match feed.metadata.store.segment? segment with
        | none => .error (.segmentNotFound segment)
        | some info =>
          match info.checkRange start length with
          | .error cause => .error (.invalidArgument cause.message)
          | .ok () => .ok (feed.fragments.read segment start length),
        feed.lookedUp segment) := by
  simp only [lookUpBytes, Attempt.effect_bind, Attempt.effect_lift, effect_segmentInfo?]
  -- the three ways out: no such segment, a range that is not outstanding, a read of the fragments
  cases feed.metadata.store.segment? segment with
  | none => rfl
  | some info =>
    dsimp only
    cases info.checkRange start length with
    | error cause => rfl
    | ok =>
      simp only [Attempt.effect_bind, Attempt.effect_get, Attempt.effect_ite, Attempt.effect_lift]
      -- whether there are bytes decides on the event, which the effect does not show
      split <;> rfl

theorem SameCore.lookUpBytes (segment : SegmentId) (start : UInt64) (length : Nat) (feed : Feed) :
    SameCore feed ((lookUpBytes segment start length).effect feed).2 := by
  rw [effect_lookUpBytes]
  exact lookedUp segment feed

theorem SameCore.persistNow (segment : SegmentId) (deltas : List AttributeDelta) (feed : Feed) :
    SameCore feed ((persistNow segment deltas).effect feed).2 := by
  simp only [Feed.persistNow, Act.effect_bind, Act.effect_get]
  -- deltas that are refused change nothing, others only the attributes
  split
  · exact refl feed
  · exact ⟨rfl, rfl, rfl, rfl, rfl, rfl, rfl, rfl, rfl, rfl, rfl⟩

theorem SameCore.sealNow (segment : SegmentId) (feed : Feed) :
    SameCore feed ((sealNow segment).effect feed).2 :=
  ⟨rfl, rfl, rfl, rfl, rfl, rfl, rfl, rfl, rfl, rfl, rfl⟩

theorem SameCore.deleteNow (segment : SegmentId) (feed : Feed) :
    SameCore feed ((deleteNow segment).effect feed).2 :=
  ⟨rfl, rfl, rfl, rfl, rfl, rfl, rfl, rfl, rfl, rfl, rfl⟩

/-- An accepted change of attributes, or one whose fault strikes, is only counted. -/
theorem effect_attributes_call (feed : Feed) (point : FaultPoint) (task : FeedTask) :
    (do requireOpen; launchUnlessFault point task : Attempt Feed FeedLaunch).effect feed =
      if feed.isClosed then (.error .closed, feed)
      else (.ok ((feed.strike point).elim (.task task) fun e => .ready (.error e)),
        feed.counted point) := by
  cases h : feed.isClosed <;> simp [Attempt.effect_bind, h]

end Feed

end OperationFeed
