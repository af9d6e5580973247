import OperationFeed.Proofs.Feed.Stream
import OperationFeed.Proofs.Feed.Waiting
import OperationFeed.Session.Launch

/-!
# Facades that make no difference

Whether the facade before a store is traced, or keeps a record, is to make no difference for those
who use it. Two metadata are *alike* if they have the same store, and records that are alike in some
sense (`Metadata.Alike`). The sense is left open; of it is asked that one more call may be written
down, and that the same number is given out next, be it forced or not (`CallRecord.Similarity`). Two
senses are used: the same record, and any two records with nothing forced.

Two feeds are alike if they differ in metadata that are alike, and in nothing else (`Feed.Alike`).
Every request to a facade, every operation of a feed and every turn of a task then respects this
(`Metadata.respects_answer`, `AsyncCall.respects_attempt`, `FeedTask.respects_turn`). The one
exception is the request to force a number, which only some of the senses allow.
-/

namespace OperationFeed

/-! ### Metadata -/

namespace CallRecord

/-- A sense in which two records are alike, for a facade that may keep no record as well. -/
structure Similarity (Q : Option CallRecord → Option CallRecord → Prop) : Prop where
  note (call : MetadataCall) {r r' : Option CallRecord} (h : Q r r') :
    Q (r.map (·.note call)) (r'.map (·.note call))
  /-- The same number is forced, or none. -/
  forced {r r' : Option CallRecord} (h : Q r r') : r.bind (·.forced) = r'.bind (·.forced)
  /-- A forced number is given out only once. -/
  unforced {r r' : Option CallRecord} (h : Q r r') :
    Q (r.map fun r => { r with forced := none }) (r'.map fun r => { r with forced := none })

/-- Of two records, if there are any, nothing is forced. -/
def NothingForced (r r' : Option CallRecord) : Prop :=
  r.bind (·.forced) = none ∧ r'.bind (·.forced) = none

/-- Equal records are alike. -/
theorem similarity_eq : Similarity Eq := by
  refine ⟨?_, ?_, ?_⟩
  · rintro call r _ rfl
    rfl
  · rintro r _ rfl
    rfl
  · rintro r _ rfl
    rfl

/-- Records of which nothing is forced are alike, whatever calls they hold. -/
theorem similarity_nothingForced : Similarity NothingForced := by
  have h_note : ∀ call (r : Option CallRecord), r.bind (·.forced) = none →
      (r.map (·.note call)).bind (·.forced) = none := by
    rintro call (_ | r) h
    · rfl
    · exact h
  -- with the forced number taken out, nothing is forced in any record
  have h_unforced : ∀ r : Option CallRecord,
      (r.map fun r => { r with forced := none }).bind (·.forced) = none := by
    rintro (_ | r) <;> rfl
  refine ⟨fun call r r' h => ⟨h_note call r h.1, h_note call r' h.2⟩, fun h => h.1.trans h.2.symm,
    fun _ => ⟨h_unforced _, h_unforced _⟩⟩

end CallRecord

variable {Q : Option CallRecord → Option CallRecord → Prop}

namespace Metadata

/-- The same store, and records that are alike. -/
structure Alike (Q : Option CallRecord → Option CallRecord → Prop) (m m' : Metadata) : Prop where
  store : m.store = m'.store
  record : Q m.record m'.record

/-- What is read off the store is the same for both. -/
theorem respects_get {α : Type} (f : MetadataStore → α) :
    (do return f (← get).store : Act Metadata α).Respects (Alike Q) :=
  .of_get (fun _ => .pure _) fun _ _ h => by rw [h.store]

/-- Telling an event changes nothing on either side. -/
theorem respects_tell (event : Event) : (tell event).Respects (Alike Q) := by
  intro m m' h
  rw [effect_tell, effect_tell]
  exact ⟨rfl, h⟩

/-- A change of the store leaves the records alone. -/
theorem respects_changeStore (change : MetadataStore → MetadataStore) :
    (changeStore change).Respects (Alike Q) :=
  .of_modify fun _ _ h => ⟨congrArg change h.store, h.record⟩

/-- A change of the store that also gives a value. -/
theorem respects_modifyStore {α : Type} (f : MetadataStore → α × MetadataStore) :
    (modifyGet fun m => ((f m.store).1, { m with store := (f m.store).2 }) :
      Act Metadata α).Respects (Alike Q) := by
  refine .of_modifyGet fun m m' h => ?_
  rw [h.store]
  exact ⟨rfl, rfl, h.record⟩

/-- A forced number comes before the one that the store would give out, and is used up by that. -/
theorem allocate_eq (m : Metadata) :
    m.allocate = match m.record.bind (·.forced) with
      | some forced =>
        (forced, { m with record := m.record.map fun r => { r with forced := none } })
      | none => (m.store.next.1, { m with store := m.store.next.2 }) := by
  obtain ⟨store, _ | ⟨latestFirst, _ | forced⟩, traced⟩ := m <;> rfl

section Similar

variable (similar : CallRecord.Similarity Q)

include similar

theorem respects_noteCall (call : MetadataCall) : (noteCall call).Respects (Alike Q) :=
  .of_modify fun _ _ h => ⟨h.store, similar.note call h.record⟩

/-- Both give out the same number: the one that is forced on both, or the next one of their store.
-/
theorem respects_allocate :
    (modifyGet allocate : Act Metadata SequenceNumber).Respects (Alike Q) := by
  refine .of_modifyGet fun m m' h => ?_
  -- the sense of alike has both force the same number
  rw [allocate_eq, allocate_eq, ← similar.forced h.record]
  cases m.record.bind (·.forced) with
  | some forced => exact ⟨rfl, h.store, similar.unforced h.record⟩
  | none =>
    dsimp only
    rw [h.store]
    exact ⟨rfl, rfl, h.record⟩

/-- The next number is given out, written down and told by both. -/
theorem respects_next : next.Respects (Alike Q) := by
  refine .bind (respects_allocate similar) fun number =>
    .bind (respects_noteCall similar _) fun _ => ?_
  exact .of_get (fun m => .bind (respects_tell _) fun _ => .pure _) fun _ _ h => by rw [h.store]

theorem respects_recordMarker (number : SequenceNumber) (address : LogAddress) :
    (recordMarker number address).Respects (Alike Q) :=
  show (do noteCall _; changeStore _; tell _ : Act Metadata Unit).Respects (Alike Q) from
  .bind (respects_noteCall similar _) fun _ => .bind (respects_changeStore _) fun _ =>
    respects_tell _

theorem respects_setPoint (number : SequenceNumber) : (setPoint number).Respects (Alike Q) :=
  .bind (respects_noteCall similar _) fun _ => .bind (respects_changeStore _) fun _ =>
    respects_tell _

theorem respects_removeMarkers (upTo : SequenceNumber) : (removeMarkers upTo).Respects (Alike Q) :=
  show (do noteCall _; changeStore _; tell _ : Act Metadata Unit).Respects (Alike Q) from
  .bind (respects_noteCall similar _) fun _ => .bind (respects_changeStore _) fun _ =>
    respects_tell _

theorem respects_segment? (segment : SegmentId) : (segment? segment).Respects (Alike Q) := by
  intro m m' h
  rw [effect_segment?, effect_segment?]
  exact ⟨congrArg (·.segment? segment) h.store, h.store, similar.note _ h.record⟩

omit similar in
/-- Asking for a truncation point is not written down at all. -/
theorem respects_isPoint (number : SequenceNumber) : (isPoint number).Respects (Alike Q) := by
  intro m m' h
  rw [effect_isPoint, effect_isPoint, h.store]
  exact ⟨rfl, h⟩

/-- The same number is given out, and a checkpoint is marked in both. -/
theorem alike_numbered {m m' : Metadata} (op : Operation) (h : m.Alike Q m') :
    m.offered = m'.offered ∧ (m.numbered op).Alike Q (m'.numbered op) := by
  obtain ⟨h_offered, h_taken⟩ := respects_next similar m m' h
  rw [effect_next, effect_next] at h_offered h_taken
  refine ⟨h_offered, ?_⟩
  have h_offered' : m'.offered = m.offered := h_offered.symm
  rw [numbered, numbered, h_offered']
  -- only a checkpoint has a marker and a point set on top of the number taken
  split
  · have h_marked := (respects_recordMarker similar m.offered ⟨m.offered⟩ _ _ h_taken).2
    exact (respects_setPoint similar m.offered _ _ h_marked).2
  · exact h_taken

/-- All requests but the one to force a number. -/
theorem respects_answer {request : MetadataRequest}
    (h_force : ∀ number, request = .forceNext number → (forceNext number).Respects (Alike Q)) :
    (answer request).Respects (Alike Q) := by
  -- the calls on one segment are one change of the store each
  have edit : ∀ segment change, (editSegment segment change).Respects (Alike Q) :=
    fun segment change => respects_modifyStore fun store => store.updateSegment segment change
  have edit? : ∀ segment change, (editSegment? segment change).Respects (Alike Q) :=
    fun segment change => .bind (edit segment change) fun _ => .pure _
  cases request with
  | container | current => exact .bind (respects_get _) fun _ => .pure _
  | marker number => exact .bind (respects_get (·.marker? number)) fun _ => .pure _
  | closestPoint number => exact .bind (respects_get (·.closestPoint? number)) fun _ => .pure _
  | next => exact .bind (respects_next similar) fun _ => .pure _
  | recordMarker number address =>
    exact .bind (respects_recordMarker similar number address) fun _ => .pure _
  | setPoint number => exact .bind (respects_setPoint similar number) fun _ => .pure _
  | isPoint number => exact .bind (respects_isPoint number) fun _ => .pure _
  | removeMarkers upTo => exact .bind (respects_removeMarkers similar upTo) fun _ => .pure _
  | segment segment => exact .bind (respects_segment? similar segment) fun _ => .pure _
  | mapSegment segment name =>
    exact respects_modifyStore fun store =>
      (Answer.segment (store.mapSegment segment name).1, (store.mapSegment segment name).2)
  | setLength | setStorageLength | setStartOffset | markSealed | markDeleted => exact edit? _ _
  | rename => exact .bind (edit _ _) fun _ => .pure _
  | forceNext number => exact .bind (h_force number rfl) fun _ => .pure _

end Similar

end Metadata

/-! ### Feeds -/

namespace Feed

/-- The feed over other metadata. -/
def withMetadata (feed : Feed) (metadata : Metadata) : Feed := { feed with metadata }

/-- The feeds differ in metadata that are alike, and in nothing else. -/
def Alike (Q : Option CallRecord → Option CallRecord → Prop) (feed feed' : Feed) : Prop :=
  ∃ metadata, feed.metadata.Alike Q metadata ∧ feed' = feed.withMetadata metadata

/-! #### What has nothing to do with the metadata -/

/-- An act that has nothing to do with the metadata. -/
theorem respects_of_apart {α : Type} {a : Act Feed α}
    (h : ∀ feed metadata,
      a.effect (feed.withMetadata metadata) =
        ((a.effect feed).1, (a.effect feed).2.withMetadata metadata)) :
    a.Respects (Alike Q) := by
  rintro feed _ ⟨metadata, h_alike, rfl⟩
  -- put the feed's own metadata in: the act gives them back untouched
  have h_same : (a.effect feed).2.metadata = feed.metadata :=
    congrArg (fun out => out.2.metadata) (h feed feed.metadata)
  rw [h feed metadata]
  refine ⟨rfl, metadata, ?_, rfl⟩
  rw [h_same]
  exact h_alike

/-- An attempt that has nothing to do with the metadata. -/
theorem respects_attempt_of_apart {α : Type} {a : Attempt Feed α}
    (h : ∀ feed metadata,
      a.effect (feed.withMetadata metadata) =
        ((a.effect feed).1, (a.effect feed).2.withMetadata metadata)) :
    a.Respects (Alike Q) := respects_of_apart h

theorem respects_tell (event : Event) : (tell event).Respects (Alike Q) := .emit event

theorem respects_requireOpen : requireOpen.Respects (Alike Q) := by
  refine respects_attempt_of_apart fun feed metadata => ?_
  rw [effect_requireOpen, effect_requireOpen]
  rfl

theorem respects_checkFault (point : FaultPoint) : (checkFault point).Respects (Alike Q) :=
  respects_of_apart fun _ _ => rfl

theorem respects_failAt (point : FaultPoint) : (failAt point).Respects (Alike Q) := by
  refine respects_attempt_of_apart fun feed metadata => ?_
  rw [effect_failAt, effect_failAt]
  rfl

theorem respects_launchUnlessFault (point : FaultPoint) (task : FeedTask) :
    (launchUnlessFault point task).Respects (Alike Q) := by
  refine respects_attempt_of_apart fun feed metadata => ?_
  rw [effect_launchUnlessFault, effect_launchUnlessFault]
  rfl

/-- What is served to a read comes from the log. -/
theorem respects_tryRead (after : SequenceNumber) (max : Nat) :
    (tryRead after max).Respects (Alike Q) := by
  refine respects_attempt_of_apart fun feed metadata => ?_
  rw [effect_tryRead, effect_tryRead]
  -- what is read is decided by the closed flag and the log, which the two feeds share
  by_cases h_closed : feed.isClosed = true
  · rw [if_pos h_closed]
    exact if_pos h_closed
  rw [if_neg h_closed]
  refine (if_neg h_closed).trans ?_
  by_cases serves : feed.Serves after max
  · rw [if_pos serves]
    exact if_pos serves
  · rw [if_neg serves]
    exact if_neg serves

/-- A call to read: its refusals, its faults, and a first try. -/
theorem respects_read (now : Nat) (after : SequenceNumber) (max : Nat) (timeout : Duration) :
    (read now after max timeout).Respects (Alike Q) := by
  refine .bind respects_requireOpen fun _ => .bind (respects_failAt .readSync) fun _ => ?_
  refine .bind (.lift (respects_checkFault .readAsync)) fun struck => ?_
  cases struck with
  | some e => exact .pure _
  | none =>
    refine .bind (respects_tryRead after max) fun found => ?_
    cases found with
    | ready operations => exact .pure _
    | wait waiter => exact .bind (.lift (respects_tell _)) fun _ => .pure _

/-- Whether a read is timed out is a matter of the clock. -/
theorem respects_expireOrWait (now : Nat) (reader : Reader) :
    (expireOrWait now reader).Respects (Alike Q) := by
  refine .ite (.bind ?_ fun _ => .bind (respects_tell _) fun _ => .pure _) (.pure _)
  exact respects_of_apart fun _ _ => rfl

/-- A turn of a reader: what it was told of arrivals, then another try. -/
theorem respects_readerTurn (now : Nat) (reader : Reader) :
    (readerTurn now reader).Respects (Alike Q) := by
  refine .of_get (fun feed => ?_) (by rintro feed _ ⟨metadata, -, rfl⟩; rfl)
  cases feed.arrivals.answer? reader.waiter with
  | none => exact respects_expireOrWait now reader
  | some outcome =>
    cases outcome with
    | cancelled => exact .pure _
    | completed =>
      -- woken up: it tries again, and goes back to waiting with the waiter it gets
      refine .bind (respects_tryRead reader.after reader.max) fun found => ?_
      rcases found with _ | _ | waiter
      · exact .pure _
      · exact .pure _
      · exact respects_expireOrWait now _

/-- A call to wait until the feed is drained looks at the log and the slot. -/
theorem respects_awaitDrain : awaitDrain.Respects (Alike Q) := by
  refine respects_attempt_of_apart fun feed metadata => ?_
  rw [effect_awaitDrain, effect_awaitDrain]
  by_cases h_closed : feed.isClosed = true
  · rw [if_pos h_closed]
    exact if_pos h_closed
  rw [if_neg h_closed]
  refine (if_neg h_closed).trans ?_
  by_cases h_drained : (!feed.drained.isPending && feed.log.isEmpty) = true
  · rw [if_pos h_drained]
    exact if_pos h_drained
  · rw [if_neg h_drained]
    exact if_neg h_drained

/-- A turn of such a wait looks at the slot only. -/
theorem respects_awaitDrainTurn (waiter : Waiter) : (awaitDrainTurn waiter).Respects (Alike Q) := by
  refine respects_of_apart fun feed metadata => ?_
  rw [effect_awaitDrainTurn, effect_awaitDrainTurn]
  rfl

/-- Bytes are recorded beside the metadata. -/
theorem respects_recordAppend (segment : SegmentId) (offset : UInt64) (data : Bytes) :
    (recordAppend segment offset data).Respects (Alike Q) :=
  .bind respects_requireOpen fun _ => .bind (.lift (respects_tell _)) fun _ =>
    respects_of_apart fun _ _ => rfl

theorem respects_clearAppendData : clearAppendData.Respects (Alike Q) :=
  respects_of_apart fun _ _ => rfl

theorem respects_admitLookup : admitLookup.Respects (Alike Q) :=
  .bind respects_requireOpen fun _ => respects_failAt _

/-- Attributes are changed beside the metadata. -/
theorem respects_persistNow (segment : SegmentId) (deltas : List AttributeDelta) :
    (persistNow segment deltas).Respects (Alike Q) := by
  refine respects_of_apart fun feed metadata => ?_
  have h_attributes : (feed.withMetadata metadata).attributes = feed.attributes := rfl
  simp only [persistNow, Act.effect_bind, Act.effect_get, h_attributes]
  -- refused or not, the metadata of each side is put back as it was
  cases feed.attributes.apply segment deltas <;> rfl

/-! #### Using the metadata -/

/-- An act on the metadata alone, if alike metadata stay alike by it. -/
theorem respects_onMetadata {α : Type} {a : Act Metadata α} (h : a.Respects (Metadata.Alike Q)) :
    (onMetadata a).Respects (Alike Q) := by
  refine h.onPart ?_ ?_
  · rintro feed _ ⟨metadata, h_alike, rfl⟩
    exact h_alike
  · rintro feed _ ⟨metadata, h_alike, rfl⟩ x y h_xy
    exact ⟨y, h_xy, rfl⟩

theorem respects_isTruncationPoint (number : SequenceNumber) :
    (isTruncationPoint number).Respects (Alike Q) :=
  respects_onMetadata (Metadata.respects_isPoint number)

/-- An acknowledgement asks the metadata whether the number is a truncation point. -/
theorem respects_acknowledge (upTo : SequenceNumber) : (acknowledge upTo).Respects (Alike Q) := by
  refine .bind respects_requireOpen fun _ => ?_
  refine .bind (.lift (respects_isTruncationPoint upTo)) fun isPoint => ?_
  cases isPoint with
  | false => exact .throw _
  | true => exact .bind (respects_failAt .ackSync) fun _ => respects_launchUnlessFault _ _

/-- Closing reads the current number off the metadata, for the event it tells. -/
theorem respects_close : close.Respects (Alike Q) := by
  refine .of_get (fun feed => .ite ?_ (.pure _)) (by rintro feed _ ⟨metadata, -, rfl⟩; rfl)
  -- the two slots stand beside the metadata
  have resolve : ∀ outcome, (resolveArrivals outcome).Respects (Alike Q) ∧
      (resolveDrained outcome).Respects (Alike Q) :=
    fun outcome => ⟨respects_of_apart fun _ _ => rfl, respects_of_apart fun _ _ => rfl⟩
  refine .bind (respects_of_apart fun _ _ => rfl) fun _ => ?_
  refine .bind (resolve _).1 fun _ => .bind (resolve _).2 fun _ => ?_
  exact .bind (respects_onMetadata (Metadata.respects_get _)) fun _ => respects_tell _

section Similar

variable (similar : CallRecord.Similarity Q)

include similar

/-! #### Changing the metadata -/

/-- The same number is taken on both sides, so the log accepts or refuses on both. -/
theorem respects_append (op : Operation) : (append op).Respects (Alike Q) := by
  rintro feed _ ⟨metadata, h_alike, rfl⟩
  obtain ⟨h_offered, h_numbered⟩ := Metadata.alike_numbered similar op h_alike
  -- the logs are equal, and so is what is appended to them
  have h_log : (feed.withMetadata metadata).log.append metadata.offered
      (op.withNumber metadata.offered) =
        feed.log.append feed.metadata.offered (op.withNumber feed.metadata.offered) := by
    rw [← h_offered]
    rfl
  rw [Attempt.effect_tryOut, Attempt.effect_tryOut, effect_append, effect_append]
  have h_metadata : (feed.withMetadata metadata).metadata = metadata := rfl
  rw [h_metadata, h_log, ← h_offered]
  cases feed.log.append feed.metadata.offered (op.withNumber feed.metadata.offered) with
  | error cause => exact ⟨rfl, _, h_numbered, rfl⟩
  | ok log => exact ⟨rfl, _, h_numbered, rfl⟩

/-- A checkpoint of the feed's own is appended, and the flag that remembers it is
beside the metadata. -/
theorem respects_insertCheckpoint : insertCheckpoint.Respects (Alike Q) := by
  refine .bind (respects_append similar _) fun number => .bind ?_ fun _ => .lift (respects_tell _)
  exact respects_of_apart fun _ _ => rfl

/-- An add proper: the append, then those who wait for arrivals are told. -/
theorem respects_finishAdd (op : Operation) : (finishAdd op).Respects (Alike Q) := by
  refine .bind (respects_append similar op) fun _ => .bind (.lift ?_) fun _ => ?_
  · exact respects_of_apart fun _ _ => rfl
  · exact .ite (.bind (.lift (respects_tell _)) fun _ => .pure _) (.pure _)

/-- An add, with a checkpoint of the feed's own before it where one is due. -/
theorem respects_add (op : Operation) : (add op).Respects (Alike Q) := by
  refine .bind respects_requireOpen fun _ => ?_
  dsimp only
  split
  · exact .throw _
  · refine .bind (respects_failAt .add) fun _ => .of_get (fun feed => .ite ?_ ?_) ?_
    · exact .bind (respects_insertCheckpoint similar) fun _ => respects_finishAdd similar op
    · exact respects_finishAdd similar op
    · rintro feed _ ⟨metadata, h_alike, rfl⟩
      -- whether one is due is counted from the current number, which alike metadata share
      have h_due : (feed.withMetadata metadata).checkpointDue = feed.checkpointDue := by
        unfold checkpointDue withMetadata
        rw [h_alike.store]
      rw [h_due]

/-- The markers go on both sides or on neither, as the same log is cut. -/
theorem respects_truncate (upTo : SequenceNumber) : (truncate upTo).Respects (Alike Q) := by
  rintro feed _ ⟨metadata, h_alike, rfl⟩
  -- the cut first: only an effective one removes markers
  obtain ⟨metadata', h_alike', h_cut⟩ :
      (feed.cut upTo).Alike Q ((feed.withMetadata metadata).cut upTo) := by
    have h_effective : (feed.withMetadata metadata).ackEffective = feed.ackEffective := rfl
    unfold cut
    rw [h_effective]
    split
    · exact ⟨_, (Metadata.respects_removeMarkers similar upTo _ _ h_alike).2, rfl⟩
    · exact ⟨metadata, h_alike, rfl⟩
  have h_drained : ((feed.cut upTo).withMetadata metadata').isDrainedBy upTo =
      (feed.cut upTo).isDrainedBy upTo := rfl
  rw [effect_truncate, effect_truncate, h_cut, h_drained]
  -- then the slot of drain waits, which depends on the log that is left
  refine ⟨rfl, metadata', ?_, ?_⟩
  · dsimp only
    split
    · exact h_alike'
    · exact h_alike'
  · dsimp only
    split
    · rfl
    · rfl

theorem respects_segmentInfo? (segment : SegmentId) : (segmentInfo? segment).Respects (Alike Q) :=
  respects_onMetadata (Metadata.respects_segment? similar segment)

/-- A look-up of bytes asks the metadata for the segment, and the fragments for the bytes. -/
theorem respects_lookUpBytes (segment : SegmentId) (start : UInt64) (length : Nat) :
    (lookUpBytes segment start length).Respects (Alike Q) := by
  refine .bind (.lift (respects_segmentInfo? similar segment)) fun info => ?_
  cases info with
  | none => exact .throw _
  | some info =>
    dsimp only
    split
    · exact .throw _
    · refine .of_get (fun feed => ?_) (by rintro feed _ ⟨metadata, -, rfl⟩; rfl)
      exact .ite (.bind (.lift (respects_tell _)) fun _ => .pure _) (.pure _)

end Similar

end Feed

/-! ### Calls and tasks -/

section Similar

variable (similar : CallRecord.Similarity Q)

include similar

omit similar in
/-- Starting an operation uses the metadata in an acknowledgement only. -/
theorem AsyncCall.respects_attempt (now : Nat) (call : AsyncCall) :
    (call.attempt now).Respects (Feed.Alike Q) := by
  cases call with
  | read after max timeout => exact Feed.respects_read now after max timeout
  | acknowledge upTo => exact Feed.respects_acknowledge upTo
  | persist | sealAttributes | deleteAttributes =>
    exact .bind Feed.respects_requireOpen fun _ => Feed.respects_launchUnlessFault _ _
  | awaitDrain => exact Feed.respects_awaitDrain

/-- Only the turn of a truncation uses the metadata. -/
theorem FeedTask.respects_turn (now : Nat) (task : FeedTask) :
    (task.turn now).Respects (Feed.Alike Q) := by
  cases task with
  | truncate upTo => exact .bind (Feed.respects_truncate similar upTo) fun _ => .pure _
  | persist segment deltas => exact .bind (Feed.respects_persistNow segment deltas) fun _ => .pure _
  | sealAttributes segment => exact .bind (Feed.respects_of_apart fun _ _ => rfl) fun _ => .pure _
  | deleteAttributes segment => exact .bind (Feed.respects_of_apart fun _ _ => rfl) fun _ => .pure _
  | read reader => exact Feed.respects_readerTurn now reader
  | awaitDrain waiter => exact Feed.respects_awaitDrainTurn waiter

omit similar in
/-- To abandon a task is at most to leave a slot. -/
theorem FeedTask.respects_abandon (task : FeedTask) : task.abandon.Respects (Feed.Alike Q) := by
  cases task with
  | read reader => exact Feed.respects_of_apart fun _ _ => rfl
  | awaitDrain waiter => exact Feed.respects_of_apart fun _ _ => rfl
  | truncate | persist | sealAttributes | deleteAttributes => exact .pure _

end Similar

/-! ### Forcing a number -/

/-- Two facades with the same record force the same number. -/
theorem Metadata.respects_forceNext (number : SequenceNumber) :
    (forceNext number).Respects (Alike Eq) :=
  .of_modify fun _ _ h =>
    ⟨h.store, congrArg (Option.map fun r => { r with forced := some number }) h.record⟩

end OperationFeed
