import OperationFeed.Proofs.Fragment.Stored
import OperationFeed.Proofs.Session.Reconstruction

/-!
# The bounds of a look-up

A look-up of a range is bounded by three numbers that are kept of its segment: how much of it is
in storage, where it starts and how long it is. Nothing ties the three together, and the range is
any two numbers, so its end may be past the last offset there is.
`SegmentInfo.checkRange_eq_error_iff` says that it is refused exactly if it is out of bounds as a
range of natural numbers (`SegmentInfo.OutOfBounds`).

`Feed.LooksUp` lists what a look-up can come to on a feed. `Feed.looksUp_lookUpBytes` says
so of every feed, and `Session.getAppendData_bounds` of the look-ups that a session makes,
after their hook.
-/

namespace OperationFeed

/-- A range is not among the bytes of a segment that are still to be had: it begins among those that
are in storage or trimmed, or ends past the segment's end. -/
def SegmentInfo.OutOfBounds (info : SegmentInfo) (start length : Nat) : Prop :=
  start < info.storageLength.toNat ∨ start < info.startOffset.toNat ∨
    info.length.toNat < start + length

instance (info : SegmentInfo) (start length : Nat) : Decidable (info.OutOfBounds start length) :=
  inferInstanceAs (Decidable (_ ∨ _ ∨ _))

/-- A range is refused exactly if it is out of bounds. If it leads past the last offset, it also
leads past the segment's end. -/
theorem SegmentInfo.checkRange_eq_error_iff (info : SegmentInfo) (start : UInt64) (length : Nat) :
    (∃ e, info.checkRange start length = .error e) ↔ info.OutOfBounds start.toNat length := by
  constructor
  · rintro ⟨e, h_check⟩
    rw [OutOfBounds]
    by_contra h_bounds
    simp only [not_or, Nat.not_lt] at h_bounds
    obtain ⟨h_storage, h_start, h_length⟩ := h_bounds
    have h_ok := checkRange_eq_ok (UInt64.le_iff_toNat_le.mpr h_storage)
      (UInt64.le_iff_toNat_le.mpr h_start) h_length
    rw [h_ok] at h_check
    cases h_check
  · intro h_bounds
    unfold checkRange
    dsimp only
    split
    · exact ⟨_, rfl⟩
    split
    · exact ⟨_, rfl⟩
    split
    · exact ⟨_, rfl⟩
    next h_storage h_start _ =>
    -- neither limit is above the start, so it is the end that is out of bounds
    rcases h_bounds with h | h | h
    · exact absurd (UInt64.lt_iff_toNat_lt.mpr h) h_storage
    · exact absurd (UInt64.lt_iff_toNat_lt.mpr h) h_start
    · rw [if_pos h]
      exact ⟨_, rfl⟩

/-- What a segment's fragments give has the length that was asked for. -/
theorem FragmentStore.length_of_read {store : FragmentStore} {segment : SegmentId} {start : UInt64}
    {length : Nat} {bytes : Bytes} (h : store.read segment start length = some bytes) :
    bytes.length = length := by
  obtain ⟨fragments, -, h_read⟩ := Option.bind_eq_some_iff.mp h
  exact (FragmentMap.read_spans h_read).1

namespace Feed

variable {feed : Feed} {segment : SegmentId} {start : UInt64} {length : Nat}

/-- What the look-up of a range comes to on a feed, whatever its metadata and its fragments are. -/
structure LooksUp (feed : Feed) (segment : SegmentId) (start : UInt64) (length : Nat)
    (result : Except FeedError (Option Bytes)) : Prop where
  /-- The segment is not found exactly if it is not mapped. -/
  segmentNotFound : ∀ other, result = .error (.segmentNotFound other) ↔
    other = segment ∧ feed.metadata.store.segment? segment = none
  /-- The range of a mapped segment is refused exactly if it is out of bounds. -/
  invalidArgument : ∀ info, feed.metadata.store.segment? segment = some info →
    ((∃ reason, result = .error (.invalidArgument reason)) ↔ info.OutOfBounds start.toNat length)
  /-- Within bounds it is read from the recorded fragments. -/
  read : ∀ info, feed.metadata.store.segment? segment = some info →
    ¬ info.OutOfBounds start.toNat length → result = .ok (feed.fragments.read segment start length)
  /-- All the bytes that are found were asked for and are within bounds. -/
  bytes : ∀ bytes, result = .ok (some bytes) → bytes.length = length ∧
    ∃ info, feed.metadata.store.segment? segment = some info ∧
      max info.storageLength.toNat info.startOffset.toNat ≤ start.toNat ∧
      start.toNat + bytes.length ≤ info.length.toNat

/-- The three ways in which a look-up goes. -/
theorem lookUpBytes_course (feed : Feed) (segment : SegmentId) (start : UInt64) (length : Nat) :
    (feed.metadata.store.segment? segment = none ∧
        ((lookUpBytes segment start length).effect feed).1 = .error (.segmentNotFound segment)) ∨
      (∃ info reason, feed.metadata.store.segment? segment = some info ∧
        info.OutOfBounds start.toNat length ∧
        ((lookUpBytes segment start length).effect feed).1 = .error (.invalidArgument reason)) ∨
      ∃ info, feed.metadata.store.segment? segment = some info ∧
        ¬ info.OutOfBounds start.toNat length ∧
        ((lookUpBytes segment start length).effect feed).1 =
          .ok (feed.fragments.read segment start length) := by
  rw [effect_lookUpBytes]
  cases h_info : feed.metadata.store.segment? segment with
  | none => exact .inl ⟨rfl, rfl⟩
  | some info =>
    have h_bounds := info.checkRange_eq_error_iff start length
    dsimp only
    cases h_check : info.checkRange start length with
    | error cause => exact .inr (.inl ⟨info, cause.message, rfl, h_bounds.mp ⟨cause, h_check⟩, rfl⟩)
    | ok =>
      -- a range that passes the check is within bounds
      refine .inr (.inr ⟨info, rfl, fun h_out => ?_, rfl⟩)
      obtain ⟨cause, h_error⟩ := h_bounds.mpr h_out
      rw [h_check] at h_error
      cases h_error

/-- The look-up of a range is as specified on every feed. -/
theorem looksUp_lookUpBytes (feed : Feed) (segment : SegmentId) (start : UInt64) (length : Nat) :
    feed.LooksUp segment start length ((lookUpBytes segment start length).effect feed).1 := by
  have h_course := feed.lookUpBytes_course segment start length
  generalize ((lookUpBytes segment start length).effect feed).1 = result at h_course
  rcases h_course with ⟨h_none, rfl⟩ | ⟨info, reason, h_info, h_out, rfl⟩
    | ⟨info, h_info, h_in, rfl⟩
  · exact ⟨fun other => by simp [h_none, eq_comm], by simp [h_none], by simp [h_none], by simp⟩
  · exact ⟨fun other => by simp [h_info], by simp [h_info, h_out], by simp [h_info, h_out], by simp⟩
  · refine ⟨fun other => by simp [h_info], by simp [h_info, h_in], fun _ _ _ => rfl, ?_⟩
    intro bytes h_bytes
    -- what is read has the length that was asked for, so it ends within bounds
    have h_length := FragmentStore.length_of_read (Except.ok.inj h_bytes)
    simp only [SegmentInfo.OutOfBounds, not_or, Nat.not_lt] at h_in
    obtain ⟨h_storage, h_start, h_end⟩ := h_in
    exact ⟨h_length, info, h_info, Nat.max_le.mpr ⟨h_storage, h_start⟩, h_length ▸ h_end⟩

end Feed

namespace Session

/-- A look-up that is made on an open feed, and that no fault strikes, comes to what is recorded and
known of its segment after its hook, whatever the hook does. -/
theorem getAppendData_bounds {session : Session} (hook : StateM Session Unit) (segment : SegmentId)
    (start : UInt64) (length : Nat) (h_open : session.feed.isClosed = false)
    (h_fault : session.feed.strike .getAppendData = none) :
    (hook.run session.admitted).2.feed.LooksUp segment start length
      ((Feed.getAppendData hook segment start length).run session).1 := by
  rw [run_getAppendData hook segment start length h_open h_fault]
  exact Feed.looksUp_lookUpBytes ..

/-- A hook that trims a segment past its end. -/
def trimHook : StateM Session Unit := do
  discard (Feed.onMetadata (Metadata.answer (.setStartOffset ⟨1⟩ 20)) : Act Feed Answer)

/-- Of the bytes from 10 to 15, some are within bounds, and no range is that leads past the last
offset or that begins before a start offset behind the end. -/
theorem getAppendData_bounds_of_streamSession :
    ((Feed.getAppendData streamHook ⟨1⟩ 11 3).run streamSession).1 = .ok (some [2, 3, 4]) ∧
    (∃ reason, ((Feed.getAppendData streamHook ⟨1⟩ 18446744073709551615 1).run streamSession).1 =
      .error (.invalidArgument reason)) ∧
    (∃ reason, ((Feed.getAppendData trimHook ⟨1⟩ 15 0).run streamSession).1 =
      .error (.invalidArgument reason)) ∧
    ((Feed.getAppendData streamHook ⟨3⟩ 0 0).run streamSession).1 =
      .error (.segmentNotFound ⟨3⟩) := by
  refine ⟨?_, ?_, ?_, ?_⟩
  · exact (getAppendData_bounds streamHook ⟨1⟩ 11 3 rfl rfl).read
      ⟨⟨1⟩, "stream", 1, 15, 10, 0, false, false⟩ rfl (by decide)
  · exact ((getAppendData_bounds streamHook ⟨1⟩ _ 1 rfl rfl).invalidArgument
      ⟨⟨1⟩, "stream", 1, 15, 10, 0, false, false⟩ rfl).mpr (by decide)
  · exact ((getAppendData_bounds trimHook ⟨1⟩ 15 0 rfl rfl).invalidArgument
      ⟨⟨1⟩, "stream", 1, 15, 10, 20, false, false⟩ rfl).mpr (by decide)
  · exact ((getAppendData_bounds streamHook ⟨3⟩ 0 0 rfl rfl).segmentNotFound ⟨3⟩).mpr ⟨rfl, rfl⟩

end Session

end OperationFeed
