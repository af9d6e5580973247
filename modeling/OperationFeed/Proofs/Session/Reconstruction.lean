import OperationFeed.Proofs.Fragment
import OperationFeed.Proofs.Run.Beside
import OperationFeed.Session.Basic

/-!
# Reconstruction of appended bytes

A stream of bytes is appended to a segment chunk by chunk, and every chunk is recorded at
the offset that it begins at. Whatever else is done in the meantime, and however the
stream was cut into chunks, a look-up of any part of it gives the bytes that were
appended there (`getAppendData_of_stream`).

What a feed holds of the segment is the stream as far as it was recorded: `Feed.Records.step` says
so for a single action, by the two ways in which a stream goes on (`RecordsStream.head_tail`), and
`Feed.Records.final` for all of them. A look-up runs a hook before it reads, and the hook may record
the rest of the stream.
-/

namespace OperationFeed

/-- The chunks of a stream that begins at an offset, each with the offset that it
begins at itself. -/
def placed : Nat → List Bytes → List (Nat × Bytes)
  | _, [] => []
  | offset, chunk :: rest => (offset, chunk) :: placed (offset + chunk.length) rest

/-- What the action records of a segment: the offset and the bytes. -/
def FeedAction.recorded? (segment : SegmentId) : FeedAction → Option (Nat × Bytes)
  | .now (.recordAppend id offset data) => if id = segment then some (offset.toNat, data) else none
  | _ => none

/-- The actions record a stream of a segment, chunk by chunk, and nothing else of the segment. They
neither forget what is recorded nor close the feed. -/
structure RecordsStream (segment : SegmentId) (base : Nat) (chunks : List Bytes)
    (actions : List FeedAction) : Prop where
  recorded : actions.filterMap (FeedAction.recorded? segment) = placed base chunks
  remembered : FeedAction.now .clearAppendData ∉ actions
  staysOpen : FeedAction.now .close ∉ actions
  /-- The end of the stream is an offset. -/
  fits : base + chunks.flatten.length < offsetLimit

namespace RecordsStream

variable {segment : SegmentId} {base : Nat} {chunks : List Bytes} {action : FeedAction}
  {actions rest : List FeedAction}

/-- The first action is about something else, or it records the first chunk. -/
theorem head_tail (h : RecordsStream segment base chunks (action :: rest)) :
    (action.recorded? segment = none ∧ RecordsStream segment base chunks rest) ∨
      ∃ chunk chunks', chunks = chunk :: chunks' ∧
        action.recorded? segment = some (base, chunk) ∧
        RecordsStream segment (base + chunk.length) chunks' rest := by
  obtain ⟨recorded, remembered, staysOpen, fits⟩ := h
  have remembered' := List.not_mem_of_not_mem_cons remembered
  have staysOpen' := List.not_mem_of_not_mem_cons staysOpen
  cases h_action : action.recorded? segment with
  | none =>
    rw [List.filterMap_cons_none h_action] at recorded
    exact .inl ⟨rfl, recorded, remembered', staysOpen', fits⟩
  | some entry =>
    rw [List.filterMap_cons_some h_action] at recorded
    -- something is recorded, so the stream is not at its end
    cases chunks with
    | nil => cases recorded
    | cons chunk chunks' =>
      obtain ⟨h_entry, h_rest⟩ := List.cons.inj recorded
      rw [List.flatten_cons, List.length_append, ← Nat.add_assoc] at fits
      exact .inr ⟨chunk, chunks', rfl, congrArg some h_entry, h_rest, remembered', staysOpen', fits⟩

/-- An action that has nothing to do with recorded bytes may come in anywhere. -/
theorem insert {before after : List FeedAction}
    (h : RecordsStream segment base chunks (before ++ after))
    (h_recorded : action.recorded? segment = none) (h_clear : action ≠ .now .clearAppendData)
    (h_close : action ≠ .now .close) :
    RecordsStream segment base chunks (before ++ action :: after) where
  -- the action is filtered out
  recorded := by
    rw [List.filterMap_append, List.filterMap_cons_none h_recorded, ← List.filterMap_append]
    exact h.recorded
  remembered h_mem := by
    rcases List.mem_append.mp h_mem with h_mem | h_mem
    · exact h.remembered (List.mem_append_left _ h_mem)
    · rcases List.mem_cons.mp h_mem with h_eq | h_mem
      · exact h_clear h_eq.symm
      · exact h.remembered (List.mem_append_right _ h_mem)
  staysOpen h_mem := by
    rcases List.mem_append.mp h_mem with h_mem | h_mem
    · exact h.staysOpen (List.mem_append_left _ h_mem)
    · rcases List.mem_cons.mp h_mem with h_eq | h_mem
      · exact h_close h_eq.symm
      · exact h.staysOpen (List.mem_append_right _ h_mem)
  fits := h.fits

end RecordsStream

/-! ### What the feed holds -/

namespace Feed

/-- The feed is open, and holds the bytes of a range of the segment. -/
structure Records (feed : Feed) (segment : SegmentId) (base : Nat) (bytes : Bytes) : Prop where
  isOpen : feed.isClosed = false
  holds : feed.fragments.Holds segment base bytes

namespace Records

variable {segment : SegmentId} {base : Nat} {bytes : Bytes} {chunks : List Bytes}
  {m : FeedMachine} {action : FeedAction} {actions : List FeedAction}

/-- On an open feed, the step records what the action says. -/
theorem after_recordAppend (h_open : m.state.isClosed = false) (other : SegmentId)
    (offset : UInt64) (data : Bytes) :
    (Step.after ⟨m, .now (.recordAppend other offset data)⟩).state.fragments =
      m.state.fragments.record other offset data := by
  show ((recordAppend other offset data).effect m.state).2.fragments = _
  rw [effect_recordAppend, h_open]
  rfl

/-- An action that records nothing of the segment leaves what is held of it. -/
theorem segment?_after (h_open : m.state.isClosed = false)
    (h_recorded : action.recorded? segment = none) (h_clear : action ≠ .now .clearAppendData) :
    (Step.after ⟨m, action⟩).state.fragments.segment? segment =
      m.state.fragments.segment? segment := by
  -- the action records something of another segment, or it does not concern the fragments
  by_cases h_record : ∃ other offset data, action = .now (.recordAppend other offset data)
  · obtain ⟨other, offset, data, rfl⟩ := h_record
    have h_other : other ≠ segment := by
      rintro rfl
      rw [FeedAction.recorded?, if_pos rfl] at h_recorded
      cases h_recorded
    rw [after_recordAppend h_open, FragmentStore.segment?_record_of_ne h_other]
  · refine congrArg (·.segment? segment) (FeedAction.keeps_fragments ?_ m)
    intro call h_call
    cases call with
    | recordAppend other offset data => exact absurd ⟨other, offset, data, h_call⟩ h_record
    | clearAppendData => exact absurd h_call h_clear
    | _ => rfl

/-- An action about something else leaves what is held. -/
theorem step_other (h : m.state.Records segment base bytes)
    (h_recorded : action.recorded? segment = none) (h_clear : action ≠ .now .clearAppendData)
    (h_close : action ≠ .now .close) :
    (Step.after ⟨m, action⟩).state.Records segment base bytes where
  isOpen := (FeedAction.keeps_isClosed h_close m).trans h.isOpen
  holds := by
    unfold FragmentStore.Holds
    rw [segment?_after h.isOpen h_recorded h_clear]
    exact h.holds

/-- The next chunk continues what is held. -/
theorem step_chunk {chunk : Bytes} (h : m.state.Records segment base bytes)
    (h_recorded : action.recorded? segment = some (base + bytes.length, chunk)) :
    (Step.after ⟨m, action⟩).state.Records segment base (bytes ++ chunk) := by
  -- the action can only be a recording of the segment
  unfold FeedAction.recorded? at h_recorded
  split at h_recorded
  · next other offset data =>
    split at h_recorded
    · next h_segment =>
      obtain ⟨h_offset, rfl⟩ := Prod.mk.inj (Option.some.inj h_recorded)
      refine ⟨(FeedAction.keeps_isClosed (by rintro ⟨⟩) m).trans h.isOpen, ?_⟩
      rw [after_recordAppend h.isOpen, h_segment]
      exact h.holds.record h_offset _
    · cases h_recorded
  · cases h_recorded

/-- Once a stream is recorded, the feed holds all of it. -/
theorem final (h : m.state.Records segment base bytes)
    (stream : RecordsStream segment (base + bytes.length) chunks actions) :
    (Step.final m actions).state.Records segment base (bytes ++ chunks.flatten) := by
  induction actions generalizing m bytes chunks with
  | nil =>
    -- no action is left, so no chunk is
    have h_chunks : chunks = [] := by
      cases chunks with
      | nil => rfl
      | cons chunk chunks' => cases stream.recorded
    rw [h_chunks, List.flatten_nil, List.append_nil]
    exact h
  | cons action rest ih =>
    rcases stream.head_tail with ⟨h_recorded, tail⟩ | ⟨chunk, chunks', rfl, h_recorded, tail⟩
    · have h_clear : action ≠ .now .clearAppendData :=
        fun h_eq => stream.remembered (h_eq ▸ List.mem_cons_self ..)
      have h_close : action ≠ .now .close :=
        fun h_eq => stream.staysOpen (h_eq ▸ List.mem_cons_self ..)
      exact ih (h.step_other h_recorded h_clear h_close) tail
    · rw [Nat.add_assoc, ← List.length_append] at tail
      rw [List.flatten_cons, ← List.append_assoc]
      exact ih (h.step_chunk h_recorded) tail

end Records

end Feed

/-! ### Looking up -/

/-- A range of outstanding bytes of a segment is not refused. -/
theorem SegmentInfo.checkRange_eq_ok {info : SegmentInfo} {start : UInt64} {length : Nat}
    (h_storage : info.storageLength ≤ start) (h_start : info.startOffset ≤ start)
    (h_length : start.toNat + length ≤ info.length.toNat) :
    info.checkRange start length = .ok () := by
  have h_limit : start.toNat + length < offsetLimit :=
    Nat.lt_of_le_of_lt h_length (UInt64.toNat_lt_size info.length)
  unfold checkRange
  dsimp only
  rw [if_neg (UInt64.not_lt.mpr h_storage), if_neg (UInt64.not_lt.mpr h_start),
    if_neg (Nat.not_le.mpr h_limit), if_neg (Nat.not_lt.mpr h_length)]

namespace Session

/-- The session once the feed has let a look-up begin: its hook is next. -/
def admitted (session : Session) : Session := ((attempt Feed.admitLookup).run session).2

/-- A look-up that is refused does not get as far as its hook. -/
theorem run_getAppendData_of_refused {session : Session} {e : FeedError}
    (hook : StateM Session Unit) (segment : SegmentId) (start : UInt64) (length : Nat)
    (h : (Feed.admitLookup.effect session.feed).1 = .error e) :
    (Feed.getAppendData hook segment start length).run session = (.error e, session.admitted) := by
  have h_first : (attempt Feed.admitLookup).run session = (.error e, session.admitted) :=
    Prod.ext h rfl
  change (attempt Feed.admitLookup >>= _ : StateM Session _).run session = _
  rw [StateT.run_bind, h_first]
  rfl

/-- A look-up that may begin is made after its hook. -/
theorem run_getAppendData_of_admitted {session : Session} (hook : StateM Session Unit)
    (segment : SegmentId) (start : UInt64) (length : Nat)
    (h : (Feed.admitLookup.effect session.feed).1 = .ok ()) :
    (Feed.getAppendData hook segment start length).run session =
      (attempt (Feed.lookUpBytes segment start length)).run (hook.run session.admitted).2 := by
  have h_first : (attempt Feed.admitLookup).run session = (.ok (), session.admitted) :=
    Prod.ext h rfl
  change (attempt Feed.admitLookup >>= _ : StateM Session _).run session = _
  rw [StateT.run_bind, h_first]
  rfl

/-- A look-up may begin on an open feed, if no fault strikes. -/
theorem admits_lookUp {feed : Feed} (h_open : feed.isClosed = false)
    (h_fault : feed.strike .getAppendData = none) : (Feed.admitLookup.effect feed).1 = .ok () := by
  rw [Feed.effect_admitLookup, h_open, h_fault]
  rfl

/-- A look-up that may begin gives what there is after its hook. -/
theorem run_getAppendData {session : Session} (hook : StateM Session Unit) (segment : SegmentId)
    (start : UInt64) (length : Nat) (h_open : session.feed.isClosed = false)
    (h_fault : session.feed.strike .getAppendData = none) :
    ((Feed.getAppendData hook segment start length).run session).1 =
      ((Feed.lookUpBytes segment start length).effect (hook.run session.admitted).2.feed).1 := by
  rw [run_getAppendData_of_admitted hook segment start length (admits_lookUp h_open h_fault)]
  rfl

/-- Let a stream of chunks be recorded, from an open feed that holds nothing of the segment: some of
it before a look-up is made, and the rest while the hook of the look-up runs. If no fault strikes,
and the range that is asked for lies in the stream and is outstanding by what the metadata then
knows of the segment, the look-up gives the bytes of the range. -/
theorem getAppendData_of_stream {m : FeedMachine} {session : Session} {hook : StateM Session Unit}
    {segment : SegmentId} {base : UInt64} {chunks : List Bytes} {before during : List FeedAction}
    {info : SegmentInfo} {start : UInt64} {length : Nat}
    (h_open : m.state.isClosed = false)
    (h_none : ((m.state.fragments.segment? segment).getD ∅).isEmpty = true)
    (stream : RecordsStream segment base.toNat chunks (before ++ during))
    (h_before : session.machine = Step.final m before)
    (h_during : (hook.run session.admitted).2.machine =
      Step.final session.admitted.machine during)
    (h_fault : session.feed.strike .getAppendData = none)
    (h_info : (hook.run session.admitted).2.feed.metadata.store.segment? segment = some info)
    (h_storage : info.storageLength ≤ start) (h_start : info.startOffset ≤ start)
    (h_length : start.toNat + length ≤ info.length.toNat)
    (h_low : base ≤ start) (h_begin : start.toNat < base.toNat + chunks.flatten.length)
    (h_end : start.toNat + length ≤ base.toNat + chunks.flatten.length) :
    ((Feed.getAppendData hook segment start length).run session).1 =
      .ok (some ((chunks.flatten.drop (start.toNat - base.toNat)).take length)) := by
  -- letting the look-up begin is one more action, in the middle of the others
  have h_machine : (hook.run session.admitted).2.machine =
      Step.final m (before ++ .now .admitLookup :: during) := by
    rw [h_during, Step.final_append, ← h_before]
    rfl
  have stream' : RecordsStream segment base.toNat chunks (before ++ .now .admitLookup :: during) :=
    stream.insert rfl nofun nofun
  have initial : m.state.Records segment base.toNat [] :=
    ⟨h_open, FragmentStore.holds_nil h_none _⟩
  have records : (hook.run session.admitted).2.feed.Records segment base.toNat chunks.flatten := by
    rw [feed, h_machine]
    exact initial.final stream'
  -- the session before the hook is open as well, as nothing in the stream closes it
  have h_session : session.feed.isClosed = false := by
    have h_close : FeedAction.now .close ∉ before :=
      fun h_mem => stream.staysOpen (List.mem_append_left _ h_mem)
    rw [feed, h_before, Step.isClosed_final h_close, h_open]
  have h_read := records.holds.read stream.fits (UInt64.le_iff_toNat_le.mp h_low) h_begin h_end
  rw [run_getAppendData hook segment start length h_session h_fault,
    Feed.effect_lookUpBytes, h_info]
  dsimp only
  rw [SegmentInfo.checkRange_eq_ok h_storage h_start h_length, ← h_read]

/-- A new feed over the metadata of container 1. -/
def streamFeed : Feed := ⟨.fresh .plain 1, .standard, true, false, ∅, ∅, ∅, ∅, ∅, ∅, ∅, 0⟩

/-- A segment with the outstanding bytes from 10 to 15, two chunks of its stream, the second of them
empty, and bytes of another segment in between. -/
def streamActions : List FeedAction :=
  [.now (.metadata (.mapSegment ⟨1⟩ "stream")), .now (.metadata (.setLength ⟨1⟩ 15)),
    .now (.metadata (.setStorageLength ⟨1⟩ 10)), .now (.recordAppend ⟨1⟩ 10 [1, 2]),
    .now (.recordAppend ⟨2⟩ 11 [9]), .now (.recordAppend ⟨1⟩ 12 []), .later .awaitDrain]

/-- A session in which the two chunks were recorded. -/
def streamSession : Session := ⟨Step.final ⟨streamFeed, .fresh⟩ streamActions, ∅, [], [], []⟩

/-- A hook that records the rest of the stream. -/
def streamHook : StateM Session Unit := do
  discard (attempt (Feed.recordAppend ⟨1⟩ 12 [3, 4, 5]))

/-- A look-up that begins in the first chunk and ends in the last, which its own hook records. -/
theorem getAppendData_of_streamSession :
    Feed.make (.fresh .plain 1) .standard = .ok streamFeed ∧
    RecordsStream ⟨1⟩ 10 [[1, 2], [], [3, 4, 5]]
      (streamActions ++ [.now (.recordAppend ⟨1⟩ 12 [3, 4, 5])]) ∧
    ((Feed.getAppendData streamHook ⟨1⟩ 11 3).run streamSession).1 = .ok (some [2, 3, 4]) := by
  have stream : RecordsStream ⟨1⟩ 10 [[1, 2], [], [3, 4, 5]]
      (streamActions ++ [.now (.recordAppend ⟨1⟩ 12 [3, 4, 5])]) :=
    ⟨rfl, by simp [streamActions], by simp [streamActions], by decide⟩
  refine ⟨rfl, stream, ?_⟩
  exact @getAppendData_of_stream ⟨streamFeed, .fresh⟩ streamSession streamHook ⟨1⟩ 10 _
    streamActions _ ⟨⟨1⟩, "stream", 1, 15, 10, 0, false, false⟩ 11 3 rfl rfl stream rfl rfl rfl rfl
    (by decide) (by decide) (by decide) (by decide) (by decide) (by decide)

end Session

end OperationFeed
