import OperationFeed.Proofs.Executor.Moves
import OperationFeed.Proofs.Feed.Stream
import OperationFeed.Proofs.Feed.Waiting

/-!
# Actions

An *action* is the smallest step of a feed and its executor that a caller can tell from others: a
call that is answered at once, a call whose result comes later, or a move of the executor. A call
that runs a hook is not one action but two, before the hook and after it, and whatever the hook does
are actions in between.

Three descriptions say what an action does to the feed, `Feed.CallCourse`, `Feed.AsyncCourse` and
`Feed.TurnCourse`, for calls of either kind and for the turns of tasks. They put together what
`Feed.Stream` and `Feed.Waiting` say of the single operations; all else leaves the core as it is
(`Feed.SameCore`).
-/

namespace OperationFeed

/-! ### Calls that are answered at once -/

/-- A call of the feed that is answered at once. -/
inductive FeedCall where
  -- A request to the container's metadata.
  | metadata (request : MetadataRequest)
  -- Add an operation.
  | add (operation : Operation)
  -- Record the bytes of an append.
  | recordAppend (segment : SegmentId) (offset : UInt64) (data : Bytes)
  -- Forget all recorded bytes.
  | clearAppendData
  -- Begin to look up bytes; the hook is next.
  | admitLookup
  -- Look up the bytes of a range, after the hook.
  | lookUpBytes (segment : SegmentId) (start : UInt64) (length : Nat)
  -- Tell that a merge is complete; the hook is next.
  | admitMerge
  -- May the log be cut at a number?
  | isTruncationPoint (number : SequenceNumber)
  -- What is the greatest number up to this one at which the log may be cut?
  | closestTruncationPoint (number : SequenceNumber)
  -- What is known about a segment? After the hook.
  | segmentInfo (segment : SegmentId)
  -- Let acknowledgements cut the log, or not.
  | setAckEffective (effective : Bool)
  -- Close the feed.
  | close
  -- Make an injector.
  | makeInjector (injector : Injector)
  -- Install an injector at a fault point, or remove the one there.
  | inject (point : FaultPoint) (id : Option InjectorId)

namespace FeedCall

/-- Make a call. -/
def act : FeedCall → Act Feed Answer
  | .metadata request => Feed.onMetadata (Metadata.answer request)
  | .add operation => return .ofResult (fun n => .number n.toNat) (← (Feed.add operation).tryOut)
  | .recordAppend segment offset data =>
    return .ofResult (fun _ => .nothing) (← (Feed.recordAppend segment offset data).tryOut)
  | .clearAppendData => do
    Feed.clearAppendData
    return .nothing
  | .admitLookup => return .ofResult (fun _ => .nothing) (← Feed.admitLookup.tryOut)
  | .lookUpBytes segment start length =>
    return .ofResult (Answer.ofOption .bytes) (← (Feed.lookUpBytes segment start length).tryOut)
  | .admitMerge => return .ofResult (fun _ => .nothing) (← Feed.requireOpen.tryOut)
  | .isTruncationPoint number => return .flag (← Feed.isTruncationPoint number)
  | .closestTruncationPoint number =>
    return .ofOption (fun n => .number n.toNat) (← Feed.closestTruncationPoint? number)
  | .segmentInfo segment => return .ofOption .segment (← Feed.segmentInfo? segment)
  | .setAckEffective effective => do
    modify fun feed => { feed with ackEffective := effective }
    return .nothing
  | .close => do
    Feed.close
    return .nothing
  | .makeInjector injector => do
    modify fun feed => { feed with injectors := (feed.injectors.register injector).2 }
    return .nothing
  | .inject point id => do
    modify fun feed => { feed with faults := feed.faults.put point id }
    return .nothing

end FeedCall

namespace Feed

/-- What a call that is answered at once does to the feed. -/
inductive CallCourse (feed : Feed) : FeedCall → Answer → Feed → Prop
  -- The call is about something else.
  | outside {call : FeedCall} {answer : Answer} {feed' : Feed} (same : SameCore feed feed')
      (notAdd : ∀ op, call ≠ .add op) : CallCourse feed call answer feed'
  | metadata (request : MetadataRequest) (answer : Answer) :
      CallCourse feed (.metadata request) answer
        { feed with metadata := ((Metadata.answer request).effect feed.metadata).2 }
  | added {op : Operation} {result : Except FeedError SequenceNumber} {feed' : Feed}
      (course : AddCourse op feed result feed') :
      CallCourse feed (.add op) (.ofResult (fun n => .number n.toNat) result) feed'
  | toggled (effective : Bool) :
      CallCourse feed (.setAckEffective effective) .nothing
        { feed with ackEffective := effective }
  | closed : CallCourse feed .close .nothing (close.effect feed).2

/-- Every call that is answered at once takes one of these courses. -/
theorem call_course (call : FeedCall) (feed : Feed) :
    CallCourse feed call (call.act.effect feed).1 (call.act.effect feed).2 := by
  cases call with
  | metadata request => exact .metadata request _
  | add op =>
    rw [FeedCall.act, Act.effect_bind, Attempt.effect_tryOut]
    exact .added (add_course op feed)
  -- most calls leave the core alone, so only that has to be said of them
  | recordAppend segment offset data =>
    rw [FeedCall.act, Act.effect_bind, Attempt.effect_tryOut]
    exact .outside (.recordAppend _ _ _ feed) (by rintro op ⟨⟩)
  | clearAppendData => exact .outside (.clearAppendData feed) (by rintro op ⟨⟩)
  | admitLookup =>
    rw [FeedCall.act, Act.effect_bind, Attempt.effect_tryOut]
    exact .outside (.admitLookup feed) (by rintro op ⟨⟩)
  | lookUpBytes segment start length =>
    rw [FeedCall.act, Act.effect_bind, Attempt.effect_tryOut]
    exact .outside (.lookUpBytes _ _ _ feed) (by rintro op ⟨⟩)
  | admitMerge =>
    rw [FeedCall.act, Act.effect_bind, Attempt.effect_tryOut, effect_requireOpen]
    exact .outside (.refl feed) (by rintro op ⟨⟩)
  | isTruncationPoint number =>
    rw [FeedCall.act, Act.effect_bind, effect_isTruncationPoint]
    exact .outside (.refl feed) (by rintro op ⟨⟩)
  | closestTruncationPoint number =>
    rw [FeedCall.act, Act.effect_bind]
    refine .outside ?_ (by rintro op ⟨⟩)
    refine ⟨?_, ?_, ?_, ?_, rfl, rfl, rfl, rfl, rfl, rfl, rfl⟩ <;>
      simp [closestTruncationPoint?, Metadata.closestPoint?]
  | segmentInfo segment =>
    rw [FeedCall.act, Act.effect_bind, effect_segmentInfo?]
    exact .outside (.lookedUp _ feed) (by rintro op ⟨⟩)
  | setAckEffective effective => exact .toggled effective
  | close => exact .closed
  | makeInjector injector =>
    exact .outside ⟨rfl, rfl, rfl, rfl, rfl, rfl, rfl, rfl, rfl, rfl, rfl⟩ (by rintro op ⟨⟩)
  | inject point id =>
    exact .outside ⟨rfl, rfl, rfl, rfl, rfl, rfl, rfl, rfl, rfl, rfl, rfl⟩ (by rintro op ⟨⟩)

end Feed

/-! ### Calls whose result comes later -/

/-- The tasks that change attributes, and nothing else. -/
def FeedTask.changesAttributes : FeedTask → Bool
  | .persist .. | .sealAttributes _ | .deleteAttributes _ => true
  | _ => false

namespace Feed

/-- What a call whose result comes later does to the feed, at a given time. -/
inductive AsyncCourse (now : Nat) (feed : Feed) :
    AsyncCall → Except FeedError FeedLaunch → Feed → Prop
  | read {after : SequenceNumber} {max : Nat} {timeout : Duration}
      {result : Except FeedError FeedLaunch} {feed' : Feed}
      (course : ReadCourse now after max timeout feed result feed') :
      AsyncCourse now feed (.read after max timeout) result feed'
  -- An acknowledgement is accepted at truncation points only.
  | acknowledge {upTo : SequenceNumber} {result : Except FeedError FeedLaunch} {feed' : Feed}
      (same : SameCore feed feed')
      (point : ∀ launch, result = .ok launch → feed.metadata.store.isPoint upTo = true)
      (task : ∀ task, result = .ok (.task task) → task = .truncate upTo) :
      AsyncCourse now feed (.acknowledge upTo) result feed'
  | attributes {call : AsyncCall} {result : Except FeedError FeedLaunch} {feed' : Feed}
      (same : SameCore feed feed') (notRead : ∀ after max timeout, call ≠ .read after max timeout)
      (task : ∀ task, result = .ok (.task task) → task.changesAttributes = true) :
      AsyncCourse now feed call result feed'
  | drain {result : Except FeedError FeedLaunch} {feed' : Feed}
      (course : DrainCourse feed result feed') :
      AsyncCourse now feed .awaitDrain result feed'

/-- The common form of the three changes of attributes. -/
theorem attributes_course {now : Nat} {feed : Feed} {call : AsyncCall} (point : FaultPoint)
    (task : FeedTask) (h_task : task.changesAttributes = true)
    (notRead : ∀ after max timeout, call ≠ .read after max timeout)
    (h : call.attempt now = do requireOpen; launchUnlessFault point task) :
    AsyncCourse now feed call ((call.attempt now).effect feed).1
      ((call.attempt now).effect feed).2 := by
  rw [h, effect_attributes_call]
  split
  · exact .attributes (.refl feed) notRead nofun
  · refine .attributes (.counted feed point) notRead ?_
    -- a task is launched only if the fault does not strike
    intro task' h_eq
    cases h_strike : feed.strike point with
    | some e => rw [h_strike] at h_eq; cases h_eq
    | none =>
      rw [h_strike] at h_eq
      cases h_eq
      exact h_task

/-- Every call whose result comes later takes one of these courses. -/
theorem async_course (now : Nat) (call : AsyncCall) (feed : Feed) :
    AsyncCourse now feed call ((call.attempt now).effect feed).1
      ((call.attempt now).effect feed).2 := by
  cases call with
  | read after max timeout => exact .read (read_course now after max timeout feed)
  | acknowledge upTo =>
    refine .acknowledge (.acknowledge upTo feed) ?_ ?_
    · intro launch h
      exact (launch_of_acknowledge h).1
    · intro task h
      rcases (launch_of_acknowledge h).2 with h_task | ⟨e, h_ready⟩
      · exact Launch.task.inj h_task
      · cases h_ready
  | persist segment deltas =>
    exact attributes_course .persistAttributes (.persist segment deltas) rfl nofun rfl
  | sealAttributes segment =>
    exact attributes_course .sealAttributes (.sealAttributes segment) rfl nofun rfl
  | deleteAttributes segment =>
    exact attributes_course .deleteAttributes (.deleteAttributes segment) rfl nofun rfl
  | awaitDrain => exact .drain (awaitDrain_course feed)

/-! ### Turns -/

/-- What a turn of a task does to the feed, at a given time. -/
inductive TurnCourse (now : Nat) (feed : Feed) : FeedTask → FeedTurn → Feed → Prop
  | truncated (upTo : SequenceNumber) :
      TurnCourse now feed (.truncate upTo) (.finished (.ok .done))
        ((truncate upTo).effect feed).2
  | attributes {task : FeedTask} {result : FeedResult} {feed' : Feed} (same : SameCore feed feed')
      (changes : task.changesAttributes = true) :
      TurnCourse now feed task (.finished result) feed'
  | read {reader : Reader} {turn : FeedTurn} {feed' : Feed}
      (course : ReaderCourse now reader feed turn feed') :
      TurnCourse now feed (.read reader) turn feed'
  -- One who waits for the log to drain goes on as before, or is over.
  | drain {waiter : Waiter} {turn : FeedTurn}
      (same : ∀ task, turn = .parked task → task = .awaitDrain waiter) :
      TurnCourse now feed (.awaitDrain waiter) turn feed

/-- Every turn takes one of these courses. -/
theorem turn_course (now : Nat) (task : FeedTask) (feed : Feed) :
    TurnCourse now feed task ((task.turn now).effect feed).1 ((task.turn now).effect feed).2 := by
  cases task with
  | truncate upTo =>
    rw [FeedTask.turn, Act.effect_bind]
    exact .truncated upTo
  | persist segment deltas => exact .attributes (.persistNow segment deltas feed) rfl
  | sealAttributes segment => exact .attributes (.sealNow segment feed) rfl
  | deleteAttributes segment => exact .attributes (.deleteNow segment feed) rfl
  | read reader => exact .read (reader_course now reader feed)
  | awaitDrain waiter =>
    rw [FeedTask.turn, awaitDrainTurn_state]
    refine .drain ?_
    -- it is parked only without an answer, and then with the same waiter
    intro task h
    rw [awaitDrainTurn, Act.effect_bind, Act.effect_get] at h
    split at h
    · cases h; rfl
    · cases h
    · cases h

end Feed

end OperationFeed
