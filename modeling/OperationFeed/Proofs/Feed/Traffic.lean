import OperationFeed.Proofs.Feed.Stream
import OperationFeed.Proofs.Feed.Waiting

/-!
# What a feed asks of its metadata

A feed uses the metadata of its container through few calls. `Feed.Asks` says which calls were
made on the way from one feed to another, as a record tells them, and that no segment was changed
on the way.

* Numbering an operation, cutting the log and looking up a segment make calls (`Feed.Takes.asks`,
  `Feed.asks_truncate`, `Feed.asks_lookedUp`).
* The calls whose result comes later make none (`AsyncCall.keeps_metadata`), nor do tasks other than
  acknowledgements (`FeedTask.keeps_metadata`) or the ends of tasks.

An operation is numbered, and a checkpoint marked, before the log is asked to take it
(`Feed.exists_numbersFirst`).
-/

namespace OperationFeed

namespace Feed

/-- These calls were recorded on the way from one feed to another, and no segment was changed. -/
structure Asks (calls : List MetadataCall) (feed feed' : Feed) : Prop where
  record : feed'.metadata.record = feed.metadata.record.map (·.noteAll calls)
  segments : feed'.metadata.store.segments = feed.metadata.store.segments

namespace Asks

variable {calls later : List MetadataCall} {feed feed₁ feed' : Feed}

/-- With the metadata as they were, nothing was asked. -/
theorem of_eq (h : feed'.metadata = feed.metadata) : Asks [] feed feed' where
  record := h ▸ Option.map_id'.symm
  segments := by rw [h]

theorem trans (h : Asks calls feed feed₁) (h' : Asks later feed₁ feed') :
    Asks (calls ++ later) feed feed' where
  record := by rw [h'.record, h.record, CallRecord.map_noteAll_append]
  segments := h'.segments.trans h.segments

/-- What happens beside the metadata need not be looked at. -/
theorem congr (h : Asks calls feed feed₁) (h_metadata : feed'.metadata = feed₁.metadata) :
    Asks calls feed feed' where
  record := by rw [h_metadata, h.record]
  segments := by rw [h_metadata, h.segments]

/-- No number is forced by the calls of a feed. -/
theorem unforced (h : Asks calls feed feed') (unforced : feed.metadata.Unforced) :
    feed'.metadata.Unforced := unforced.of_record h.record

end Asks

variable {op : Operation} {feed feed' : Feed}

/-- Fault points come before all calls to the metadata. -/
theorem asks_counted (feed : Feed) (point : FaultPoint) : Asks [] feed (feed.counted point) :=
  .of_eq rfl

/-! ### What makes calls -/

/-- To look up bytes asks for the segment, once. -/
theorem asks_lookedUp (feed : Feed) (segment : SegmentId) :
    Asks [.segment segment] feed (feed.lookedUp segment) := ⟨rfl, rfl⟩

/-- An operation that is taken was numbered, and marked if it is a checkpoint. -/
theorem Takes.asks (takes : Takes op feed feed') (unforced : feed.metadata.Unforced) :
    Asks (op.numberingCalls feed.metadata.offered) feed feed' := by
  rw [takes.eq]
  exact ⟨Metadata.record_numbered_of_unforced unforced op, Metadata.segments_numbered ..⟩

/-- An acknowledgement that is effective removes markers. -/
theorem asks_truncate (upTo : SequenceNumber) (feed : Feed) :
    Asks (if feed.ackEffective then [.removeMarkers upTo] else []) feed
      ((truncate upTo).effect feed).2 := by
  -- the cut is all of it: telling those who wait does not use the metadata
  have h_cut :
      Asks (if feed.ackEffective then [.removeMarkers upTo] else []) feed (feed.cut upTo) := by
    unfold cut
    split
    · rw [Metadata.effect_removeMarkers]
      exact ⟨rfl, rfl⟩
    · exact .of_eq rfl
  rw [effect_truncate]
  refine h_cut.congr ?_
  dsimp only
  split
  · rfl
  · rfl

/-! ### Marking before logging -/

/-- Number an operation, and mark the number of a checkpoint. -/
def numberOperation (op : Operation) : Act Feed SequenceNumber := do
  let number ← allocateNumber
  if op.isCheckpoint then markCheckpoint number
  return number

/-- Put an operation with its number at the end of the log. -/
def logOperation (op : Operation) (number : SequenceNumber) : Attempt Feed SequenceNumber := do
  let feed ← get
  match feed.log.append number (op.withNumber number) with
  | .error e => throw (.log e)
  | .ok log =>
    set { feed with log }
    tell (.trace "operation added"
      [("sequence", .number number.toNat), ("kind", .text op.name)])
    return number

/-- The first stage of an append numbers, and always succeeds. -/
theorem effect_numberOperation (op : Operation) (feed : Feed) :
    (numberOperation op).effect feed =
      (feed.metadata.offered, { feed with metadata := feed.metadata.numbered op }) := by
  simp only [numberOperation, Act.effect_bind, effect_allocateNumber]
  cases h_kind : op.isCheckpoint <;> simp [Metadata.numbered, h_kind]

/-- The second stage, where the log takes the operation. -/
theorem effect_logOperation_of_ok {log : Log Operation} {number : SequenceNumber} (feed : Feed)
    (h : feed.log.append number (op.withNumber number) = .ok log) :
    (logOperation op number).effect feed = (.ok number, { feed with log }) := by
  simp [logOperation, Attempt.effect_bind, h]

/-- The second stage, where the log rejects the number. -/
theorem effect_logOperation_of_error {cause : OutOfOrder} {number : SequenceNumber} (feed : Feed)
    (h : feed.log.append number (op.withNumber number) = .error cause) :
    (logOperation op number).effect feed = (.error (.log cause), feed) := by
  simp [logOperation, Attempt.effect_bind, h]

/-- Appending an operation is to number it and then to put it in the log. -/
theorem effect_append_eq (op : Operation) (feed : Feed) :
    (append op).effect feed = (logOperation op feed.metadata.offered).effect
      { feed with metadata := feed.metadata.numbered op } := by
  rcases append_cases op feed with ⟨feed', takes, h⟩ | ⟨cause, feed', rejects, h⟩
  · rw [h, effect_logOperation_of_ok { feed with metadata := feed.metadata.numbered op }
      takes.accepted]
    exact congrArg _ takes.eq
  · rw [h, effect_logOperation_of_error { feed with metadata := feed.metadata.numbered op }
      rejects.refused]
    exact congrArg _ rejects.eq

/-- The log is all that putting an operation in it changes. -/
theorem metadata_logOperation (op : Operation) (number : SequenceNumber) (feed : Feed) :
    ((logOperation op number).effect feed).2.metadata = feed.metadata := by
  cases h_log : feed.log.append number (op.withNumber number) with
  | ok log => rw [effect_logOperation_of_ok feed h_log]
  | error cause => rw [effect_logOperation_of_error feed h_log]

/-- An operation enters the log in two stages, with a feed in between. The first stage asks the
metadata for everything that is asked of them, and leaves the log; the second does the opposite. -/
structure NumbersFirst (op : Operation) (feed between : Feed) (number : SequenceNumber) : Prop where
  numbers : (numberOperation op).effect feed = (number, between)
  log : between.log = feed.log
  marked : op.isCheckpoint = true → between.metadata.store.isPoint number = true ∧
    between.metadata.store.marker? number = some ⟨number⟩
  append : (append op).effect feed = (logOperation op number).effect between
  metadata : ((logOperation op number).effect between).2.metadata = between.metadata

/-- Every operation is numbered, and every checkpoint is marked, before it is in the log. -/
theorem exists_numbersFirst (op : Operation) (feed : Feed) :
    ∃ between number, NumbersFirst op feed between number := by
  -- what is in between is numbered and marked, and has the log of the start
  refine ⟨_, _, effect_numberOperation op feed, rfl, fun h_checkpoint => ⟨?_, ?_⟩,
    effect_append_eq op feed, metadata_logOperation ..⟩
  · exact (Metadata.isPoint_numbered ..).mpr (.inl ⟨h_checkpoint, rfl⟩)
  · rw [Metadata.marker?_numbered, if_pos ⟨h_checkpoint, rfl⟩]

end Feed

/-! ### What makes no calls -/

namespace AsyncCall

/-- A call whose result comes later may ask for truncation points, and that is not recorded. -/
theorem keeps_metadata (now : Nat) (call : AsyncCall) : (call.attempt now).Keeps Feed.metadata := by
  intro feed
  rw [Attempt.effect_tryOut]
  cases call with
  -- refused, struck by either fault, served, or waiting: the metadata stay as they are
  | read after max timeout =>
    rw [attempt, Feed.effect_read]
    split
    · rfl
    dsimp only
    split
    · rfl
    split
    · rfl
    split
    · rfl
    · rfl
  -- the question for a truncation point is not recorded
  | acknowledge upTo =>
    rw [attempt, Feed.effect_acknowledge]
    split
    · rfl
    split
    · split
      · rfl
      · rfl
    · rfl
  | persist | sealAttributes | deleteAttributes =>
    refine (congrArg (·.2.metadata) (Feed.effect_attributes_call feed _ _)).trans ?_
    split
    · rfl
    · rfl
  | awaitDrain =>
    rw [attempt, Feed.effect_awaitDrain]
    split
    · rfl
    split
    · rfl
    · rfl

end AsyncCall

namespace FeedTask

/-- A task that is not an acknowledgement does not use the metadata. -/
theorem keeps_metadata (now : Nat) {task : FeedTask} (h : ∀ upTo, task ≠ .truncate upTo) :
    (task.turn now).Keeps Feed.metadata := by
  intro feed
  cases task with
  | truncate upTo => exact absurd rfl (h upTo)
  | persist segment deltas =>
    rw [turn, Act.effect_bind, Feed.persistNow, Act.effect_bind, Act.effect_get]
    dsimp only
    split
    · rfl
    · rfl
  | sealAttributes segment => rfl
  | deleteAttributes segment => rfl
  | read reader =>
    -- a reader may join the slot or leave it, and nothing else
    have course := Feed.reader_course now reader feed
    rw [turn]
    generalize ((Feed.readerTurn now reader).effect feed).1 = result,
      ((Feed.readerTurn now reader).effect feed).2 = feed' at course ⊢
    cases course with
    | waits | expired | cancelled | closed | found | rejoined | rejoinedExpired => rfl
  | awaitDrain waiter => rw [turn, Feed.awaitDrainTurn_state]

/-- To abandon a task does not use the metadata. -/
theorem keeps_metadata_abandon (task : FeedTask) :
    (Work.abandon task : Act Feed Unit).Keeps Feed.metadata := by
  intro feed
  cases task with
  | truncate | persist | sealAttributes | deleteAttributes | read | awaitDrain => rfl

end FeedTask

end OperationFeed
