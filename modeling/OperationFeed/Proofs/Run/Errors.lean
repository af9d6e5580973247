import OperationFeed.Proofs.Feed.Faults
import OperationFeed.Proofs.Run.Turns

/-!
# Where errors appear

An error reaches the caller in one of two ways. Either the call itself is refused, or the call is
accepted and the error is the result that its completion gives. Which errors come which way is told
by two lists:

* `Refusal` has the errors with which an action can be refused, each with the reason for it;
* `AsyncCall.MayGive` has the results that the completion of a call can give.

`Step.refusal` and `Run.mayGive` say that there are no others. Both lists have a place
for faults, and a fault may be made with any error; so `Run.error_channels`, which says
what never appears where, is about runs in which the installed injectors produce
injected failures (`Feed.InjectsOnly`).
-/

namespace OperationFeed

/-! ### Refused calls -/

/-- Why an action is answered with an error. -/
inductive Refusal (feed : Feed) : FeedAction → FeedError → Prop
  | closed {action : FeedAction} (isClosed : feed.isClosed = true) : Refusal feed action .closed
  -- A fault strikes.
  | struck {action : FeedAction} {point : FaultPoint} {e : FeedError}
      (strikes : feed.strike point = some e) : Refusal feed action e
  | numbered {op : Operation} {number : SequenceNumber} (has : op.sequenceNumber = some number) :
      Refusal feed (.now (.add op)) (.alreadySequenced number)
  -- The log rejects a number.
  | rejected {op : Operation} (cause : OutOfOrder) : Refusal feed (.now (.add op)) (.log cause)
  | notPoint {upTo : SequenceNumber} (not : feed.metadata.store.isPoint upTo = false) :
      Refusal feed (.later (.acknowledge upTo)) (.invalidTruncationPoint upTo)
  | unmapped {segment : SegmentId} {start : UInt64} {length : Nat}
      (not : feed.metadata.store.segment? segment = none) :
      Refusal feed (.now (.lookUpBytes segment start length)) (.segmentNotFound segment)
  -- The range is not among the outstanding bytes of the segment.
  | outOfRange {segment : SegmentId} {start : UInt64} {length : Nat} {info : SegmentInfo}
      {cause : RangeError} (mapped : feed.metadata.store.segment? segment = some info)
      (bad : info.checkRange start length = .error cause) :
      Refusal feed (.now (.lookUpBytes segment start length)) (.invalidArgument cause.message)

/-- A success is not a failure, whatever it is answered with. -/
theorem Answer.eq_error_of_ofResult {α : Type} {f : α → Answer} {result : Except FeedError α}
    {e : FeedError} (h : ofResult f result = .failure e) : result = .error e := by
  cases result with
  | ok x => cases h
  | error e' => rw [Answer.failure.inj h]

/-- An answer that may be missing is no failure either. -/
theorem Answer.ofOption_ne_failure {α : Type} {f : α → Answer} (hf : ∀ x e, f x ≠ .failure e)
    (o : Option α) (e : FeedError) : ofOption f o ≠ .failure e := by
  cases o with
  | none => nofun
  | some x => exact hf x e

/-- No request to the metadata fails. -/
theorem Metadata.answer_ne_failure (request : MetadataRequest) (m : Metadata) (e : FeedError) :
    ((answer request).effect m).1 ≠ .failure e := by
  cases request with
  | marker | closestPoint | segment | rename =>
    exact Answer.ofOption_ne_failure (by rintro _ _ ⟨⟩) _ e
  | _ => exact nofun

namespace Refusal

variable {feed : Feed} {e : FeedError}

/-- An add is refused by a check, by a fault, or because the log rejects a number. -/
theorem of_add {op : Operation} (h : ((Feed.add op).effect feed).1 = .error e) :
    Refusal feed (.now (.add op)) e := by
  have course := Feed.add_course op feed
  rw [h] at course
  generalize ((Feed.add op).effect feed).2 = feed' at course
  cases course with
  | refused same why =>
    rcases why with ⟨isClosed, rfl⟩ | ⟨number, has, rfl⟩ | strikes
    · exact .closed isClosed
    · exact .numbered has
    · exact .struck strikes
  | rejectedCheckpoint admits due rejects => exact .rejected _
  | rejected admits prepares rejects => exact .rejected _

/-- The check for an open feed refuses with the closed error only. -/
theorem of_requireOpen {action : FeedAction} (h : (Feed.requireOpen.effect feed).1 = .error e) :
    Refusal feed action e := by
  rw [Feed.effect_requireOpen] at h
  dsimp only at h
  split at h
  · next isClosed =>
    cases h
    exact .closed isClosed
  · cases h

/-- Recording bytes is refused by a closed feed only. -/
theorem of_recordAppend {segment : SegmentId} {offset : UInt64} {data : Bytes}
    (h : ((Feed.recordAppend segment offset data).effect feed).1 = .error e) :
    Refusal feed (.now (.recordAppend segment offset data)) e := by
  rw [Feed.effect_recordAppend] at h
  split at h
  · next isClosed =>
    cases h
    exact .closed isClosed
  · cases h

/-- A look-up is refused by a closed feed or by a fault, before the hook. -/
theorem of_admitLookup (h : (Feed.admitLookup.effect feed).1 = .error e) :
    Refusal feed (.now .admitLookup) e := by
  rw [Feed.effect_admitLookup] at h
  split at h
  · next isClosed =>
    cases h
    exact .closed isClosed
  · cases h_strike : feed.strike .getAppendData with
    | none =>
      rw [h_strike] at h
      cases h
    | some e' =>
      rw [h_strike] at h
      cases h
      exact .struck h_strike

/-- After the hook, it is refused for the segment or for the range. -/
theorem of_lookUpBytes {segment : SegmentId} {start : UInt64} {length : Nat}
    (h : ((Feed.lookUpBytes segment start length).effect feed).1 = .error e) :
    Refusal feed (.now (.lookUpBytes segment start length)) e := by
  rw [Feed.effect_lookUpBytes] at h
  cases h_info : feed.metadata.store.segment? segment with
  | none =>
    rw [h_info] at h
    cases h
    exact .unmapped h_info
  | some info =>
    rw [h_info] at h
    dsimp only at h
    cases h_range : info.checkRange start length with
    | ok =>
      rw [h_range] at h
      cases h
    | error cause =>
      rw [h_range] at h
      cases h
      exact .outOfRange h_info h_range

end Refusal

/-- Every refusal of a call that is answered at once is one of the list. -/
theorem FeedCall.refusal {feed : Feed} {call : FeedCall} {e : FeedError}
    (h : (call.act.effect feed).1 = .failure e) : Refusal feed (.now call) e := by
  cases call with
  | metadata request => exact absurd h (Metadata.answer_ne_failure request feed.metadata e)
  | add op => exact .of_add (Answer.eq_error_of_ofResult h)
  | recordAppend segment offset data => exact .of_recordAppend (Answer.eq_error_of_ofResult h)
  | admitLookup => exact .of_admitLookup (Answer.eq_error_of_ofResult h)
  | lookUpBytes segment start length => exact .of_lookUpBytes (Answer.eq_error_of_ofResult h)
  | admitMerge => exact .of_requireOpen (Answer.eq_error_of_ofResult h)
  -- what only asks never fails; what always succeeds is no failure
  | closestTruncationPoint | segmentInfo =>
    exact absurd h (Answer.ofOption_ne_failure (by rintro _ _ ⟨⟩) _ e)
  | clearAppendData | isTruncationPoint | setAckEffective | close | makeInjector | inject => cases h

/-! #### Calls whose result comes later -/

namespace AsyncCall

/-- The fault points that a call comes through, in order. -/
def faultPoints : AsyncCall → List FaultPoint
  | .read .. => [.readSync, .readAsync]
  | .acknowledge _ => [.ackSync, .ackAsync]
  | .persist .. => [.persistAttributes]
  | .sealAttributes _ => [.sealAttributes]
  | .deleteAttributes _ => [.deleteAttributes]
  | .awaitDrain => []

/-- How the feed responds to a call: what the call is answered with, and what is left
of the feed. -/
inductive Response (feed : Feed) : AsyncCall → Except FeedError FeedLaunch → Feed → Prop
  | closed {call : AsyncCall} (isClosed : feed.isClosed = true) :
      Response feed call (.error .closed) feed
  | notPoint {upTo : SequenceNumber} (not : feed.metadata.store.isPoint upTo = false) :
      Response feed (.acknowledge upTo) (.error (.invalidTruncationPoint upTo)) feed
  -- A fault strikes at the first fault point, and the call is refused.
  | struck {call : AsyncCall} {point : FaultPoint} {e : FeedError}
      (isPrefix : [point] <+: call.faultPoints) (strikes : feed.strike point = some e)
      (isSync : point.isSync = true) : Response feed call (.error e) (feed.counted point)
  -- A fault strikes, and the completion has failed already.
  | struckLater {call : AsyncCall} {point : FaultPoint} {e : FeedError} (before : List FaultPoint)
      (isPrefix : before ++ [point] <+: call.faultPoints)
      (strikes : feed.StrikesAfter before point e) (isAsync : point.isSync = false) :
      Response feed call (.ok (.ready (.error e))) (feed.through (before ++ [point]))
  -- There is something to read.
  | found {after : SequenceNumber} {max : Nat} {timeout : Duration} {operations : List Operation}
      {feed' : Feed} (spares : feed.Spares [.readSync, .readAsync])
      (counted : feed'.injectors = (feed.through [.readSync, .readAsync]).injectors) :
      Response feed (.read after max timeout) (.ok (.ready (.ok (.batch operations)))) feed'
  -- There is nothing in the log.
  | drained : Response feed .awaitDrain (.ok (.ready (.ok .done))) feed
  -- A task is left to be done.
  | waits {call : AsyncCall} {task : FeedTask} {feed' : Feed}
      (spares : feed.Spares call.faultPoints)
      (counted : feed'.injectors = (feed.through call.faultPoints).injectors) :
      Response feed call (.ok (.task task)) feed'

/-- Changes of attributes come through one fault point, and a fault there is told
by the completion. -/
theorem Response.attributes {call : AsyncCall} {point : FaultPoint} (feed : Feed) (task : FeedTask)
    (h_points : call.faultPoints = [point]) (isAsync : point.isSync = false) :
    call.Response feed
      ((do Feed.requireOpen; Feed.launchUnlessFault point task :
        Attempt Feed FeedLaunch).effect feed).1
      ((do Feed.requireOpen; Feed.launchUnlessFault point task :
        Attempt Feed FeedLaunch).effect feed).2 := by
  rw [Feed.effect_attributes_call]
  split
  · next isClosed => exact .closed isClosed
  cases h_strike : feed.strike point with
  | some e => exact .struckLater [] (h_points ▸ List.prefix_refl _) ⟨trivial, h_strike⟩ isAsync
  | none =>
    refine .waits ?_ ?_
    · rw [h_points]
      exact ⟨h_strike, trivial⟩
    · rw [h_points]
      rfl

/-- Every call takes one of these responses. -/
theorem response (now : Nat) (feed : Feed) (call : AsyncCall) :
    call.Response feed ((call.attempt now).effect feed).1 ((call.attempt now).effect feed).2 := by
  cases call with
  -- two fault points, of which the first refuses and the second fails the completion
  | read after max timeout =>
    rw [attempt, Feed.effect_read]
    split
    · next isClosed => exact .closed isClosed
    cases h_sync : feed.strike .readSync with
    | some e => exact .struck ⟨[.readAsync], rfl⟩ h_sync rfl
    | none =>
    cases h_async : (feed.counted .readSync).strike .readAsync with
    | some e => exact .struckLater [.readSync] (List.prefix_refl _) ⟨⟨h_sync, trivial⟩, h_async⟩ rfl
    | none =>
      have spares : feed.Spares [.readSync, .readAsync] := ⟨h_sync, h_async, trivial⟩
      dsimp only
      split
      · exact .found spares rfl
      · exact .waits spares rfl
  -- the same two kinds of faults, behind the question for a truncation point
  | acknowledge upTo =>
    rw [attempt, Feed.effect_acknowledge]
    split
    · next isClosed => exact .closed isClosed
    split
    · cases h_sync : feed.strike .ackSync with
      | some e => exact .struck ⟨[.ackAsync], rfl⟩ h_sync rfl
      | none =>
      cases h_async : (feed.counted .ackSync).strike .ackAsync with
      | some e =>
        exact .struckLater [.ackSync] (List.prefix_refl _) ⟨⟨h_sync, trivial⟩, h_async⟩ rfl
      | none => exact .waits ⟨h_sync, h_async, trivial⟩ rfl
    · next not => exact .notPoint (Bool.not_eq_true _ ▸ not)
  | persist | sealAttributes | deleteAttributes => exact .attributes feed _ rfl rfl
  | awaitDrain =>
    rw [attempt, Feed.effect_awaitDrain]
    split
    · next isClosed => exact .closed isClosed
    split
    · exact .drained
    · exact .waits trivial rfl

/-- Every refusal of a call whose result comes later is one of the list. -/
theorem refusal {now : Nat} {feed : Feed} {call : AsyncCall} {e : FeedError}
    (h : ((call.attempt now).effect feed).1 = .error e) : Refusal feed (.later call) e := by
  have response := call.response now feed
  rw [h] at response
  generalize ((call.attempt now).effect feed).2 = feed' at response
  -- the other responses accept the call
  cases response with
  | closed isClosed => exact .closed isClosed
  | notPoint not => exact .notPoint not
  | struck isPrefix strikes isSync => exact .struck strikes

end AsyncCall

/-- Every failure that an action is answered with is one of the list. -/
theorem Step.refusal {s : Step} {e : FeedError} (h : s.answer = .failure e) :
    Refusal s.before.state s.action e := by
  obtain ⟨m, action⟩ := s
  cases action with
  | now call => exact FeedCall.refusal h
  | later call =>
    rw [answer, FeedAction.perform, Act.effect_bind, AsyncCall.effect_perform] at h
    -- an accepted call is answered with its handle
    rcases h_attempt : (call.attempt m.executor.clock).effect m.state with ⟨e' | launch, feed'⟩
    · rw [h_attempt] at h
      cases h
      exact AsyncCall.refusal (congrArg Prod.fst h_attempt)
    · rw [h_attempt] at h
      cases h
  | executor move => cases h

/-! ### Completions -/

/-- What the completion of a call can give; `down` says that the executor was shut down before. -/
inductive AsyncCall.MayGive (down : Prop) : AsyncCall → FeedResult → Prop
  | batch {after : SequenceNumber} {max : Nat} {timeout : Duration} (operations : List Operation) :
      MayGive down (.read after max timeout) (.ok (.batch operations))
  | done {call : AsyncCall} (notRead : ∀ after max timeout, call ≠ .read after max timeout) :
      MayGive down call (.ok .done)
  -- A fault has struck. None strikes those who wait for the log to drain.
  | injected {call : AsyncCall} (reason : String) (notDrain : call ≠ .awaitDrain) :
      MayGive down call (.error (.injected reason))
  -- The attributes of the call's own segment are sealed, or deleted.
  | sealed {segment : SegmentId} {deltas : List AttributeDelta} :
      MayGive down (.persist segment deltas) (.error (.segmentSealed segment))
  | deleted {segment : SegmentId} {deltas : List AttributeDelta} :
      MayGive down (.persist segment deltas) (.error (.segmentNotFound segment))
  -- The time is over that was allowed for the read.
  | timeout {after : SequenceNumber} {max : Nat} {timeout : Duration} :
      MayGive down (.read after max timeout) (.error (.timeout timeout))
  -- The feed was closed.
  | readCancelled {after : SequenceNumber} {max : Nat} {timeout : Duration} :
      MayGive down (.read after max timeout) (.error .cancelled)
  | drainCancelled : MayGive down .awaitDrain (.error .cancelled)
  | ended {call : AsyncCall} (isDown : down) : MayGive down call (.error .cancelled)

/-- Deltas are refused for their own segment. -/
theorem AttributeStore.error_of_apply {store : AttributeStore} {segment : SegmentId}
    {deltas : List AttributeDelta} {e : AttributeError}
    (h : store.apply segment deltas = .error e) :
    e = .segmentSealed segment ∨ e = .segmentNotFound segment := by
  unfold apply at h
  split at h
  · cases h
  · cases h
  · split at h
    · cases h
    · exact .inl (Except.error.inj h).symm
  · exact .inr (Except.error.inj h).symm

namespace AsyncCall.MayGive

variable {down : Prop} {call : AsyncCall} {feed : Feed} {now : Nat} {result : FeedResult}

/-- No contract violation comes through a completion. -/
theorem isContractViolation {e : FeedError} (h : call.MayGive down (.error e)) :
    e.isContractViolation = false := by
  cases h <;> rfl

/-- An injected failure may come through any completion but that of a drain wait. -/
theorem of_strike {point : FaultPoint} {e : FeedError} (h_injects : feed.InjectsOnly)
    (strikes : feed.strike point = some e) (h_call : call ≠ .awaitDrain) :
    call.MayGive down (.error e) := by
  obtain ⟨reason, rfl⟩ := h_injects.strike strikes
  exact .injected reason h_call

/-- What an accepted call has as its result at once. -/
theorem of_attempt (h_injects : feed.InjectsOnly)
    (h : ((call.attempt now).effect feed).1 = .ok (.ready result)) : call.MayGive down result := by
  have response := call.response now feed
  rw [h] at response
  generalize ((call.attempt now).effect feed).2 = feed' at response
  -- a result at once comes from a fault, from the log, or from an empty log
  cases response with
  | struckLater before isPrefix strikes isAsync =>
    refine .of_strike (h_injects.through before) strikes.strikes ?_
    rintro rfl
    -- those who wait for the log to drain come through no fault point
    exact List.cons_ne_nil _ _ (List.append_eq_nil_iff.mp (List.prefix_nil.mp isPrefix)).2
  | found spares counted => exact .batch _
  | drained => exact .done (by rintro _ _ _ ⟨⟩)

/-- What the last turn of the task that a call has left results in. -/
theorem of_turn {task : FeedTask} (leaves : call.Leaves task)
    (h : ((task.turn now).effect feed).1 = .finished result) : call.MayGive down result := by
  -- the task is known by its call, and what its turn gives by the state of the feed
  cases call with
  | read after max timeout =>
    obtain ⟨deadline, waiter, rfl⟩ := leaves
    have course := Feed.reader_course now ⟨after, max, deadline, timeout, waiter⟩ feed
    rw [FeedTask.turn] at h
    rw [h] at course
    generalize ((Feed.readerTurn now _).effect feed).2 = feed' at course
    cases course with
    | expired | rejoinedExpired => exact .timeout
    | cancelled | closed => exact .readCancelled
    | found => exact .batch _
  | acknowledge upTo =>
    obtain rfl : task = .truncate upTo := leaves
    cases h
    exact .done (by rintro _ _ _ ⟨⟩)
  | persist segment deltas =>
    obtain rfl : task = .persist segment deltas := leaves
    rw [FeedTask.turn, Act.effect_bind, Feed.persistNow, Act.effect_bind, Act.effect_get] at h
    cases h_apply : feed.attributes.apply segment deltas with
    | ok attributes =>
      rw [h_apply] at h
      cases h
      exact .done (by rintro _ _ _ ⟨⟩)
    | error e =>
      rw [h_apply] at h
      cases h
      -- deltas are refused for the segment of the call
      rcases AttributeStore.error_of_apply h_apply with rfl | rfl
      · exact .sealed
      · exact .deleted
  | sealAttributes segment =>
    obtain rfl : task = .sealAttributes segment := leaves
    cases h
    exact .done (by rintro _ _ _ ⟨⟩)
  | deleteAttributes segment =>
    obtain rfl : task = .deleteAttributes segment := leaves
    cases h
    exact .done (by rintro _ _ _ ⟨⟩)
  | awaitDrain =>
    obtain ⟨waiter, rfl⟩ := leaves
    rw [FeedTask.turn, Feed.effect_awaitDrainTurn] at h
    cases h_answer : feed.drained.answer? waiter with
    | none =>
      rw [h_answer] at h
      cases h
    | some outcome =>
      rw [h_answer] at h
      cases h
      cases outcome with
      | completed => exact .done (by rintro _ _ _ ⟨⟩)
      | cancelled => exact .drainCancelled

end AsyncCall.MayGive

/-! ### Runs -/

/-- A call that has its result in its own step. -/
theorem Step.AcceptsCall.mayGive {s : Step} {call : AsyncCall} {handle : Handle}
    {result : FeedResult}
    (accepts : s.AcceptsCall call handle) (h_injects : s.before.state.InjectsOnly)
    (resolves : s.Resolves handle result) :
    call.MayGive (s.after.executor.alive = false) result := by
  obtain ⟨rfl, launch, feed', h_attempt, start⟩ := accepts.launch
  have h_after := resolves.after
  generalize s.after = m' at start h_after ⊢
  -- the handle is the one just made: resolved at once, waiting, or given up by a dead executor
  cases start with
  | ready result' =>
    cases (List.getElem?_concat_length.symm.trans h_after : some (HandleState.resolved result') = _)
    exact .of_attempt h_injects (congrArg Prod.fst h_attempt)
  | task task alive =>
    cases (List.getElem?_concat_length.symm.trans h_after : some HandleState.waiting = _)
  | dead task dead =>
    cases (List.getElem?_concat_length.symm.trans h_after :
      some (HandleState.resolved (Except.error FeedError.cancelled)) = _)
    exact .ended dead

namespace Run

variable {feed : Feed} {steps : List Step} {m : FeedMachine} {handle : Handle}

/-- Every handle is the answer to an accepted call. -/
theorem exists_acceptsCall (run : Run feed steps m) (h_lt : handle < m.executor.handles.length) :
    ∃ s ∈ steps, ∃ call, s.AcceptsCall call handle := by
  induction run with
  | start => exact absurd h_lt (Nat.not_lt_zero _)
  | @step steps m run action ih =>
    by_cases h_old : handle < m.executor.handles.length
    · obtain ⟨s, h_s, accepts⟩ := ih h_old
      exact ⟨s, List.mem_append_left _ h_s, accepts⟩
    refine ⟨⟨m, action⟩, List.mem_concat_self, ?_⟩
    have course := Step.course ⟨m, action⟩
    generalize h_answer :
      Step.answer ⟨m, action⟩ = answer, Step.after ⟨m, action⟩ = m' at course h_lt
    change Step.Course m action answer m' at course
    -- only an accepted call makes a handle
    cases course with
    | called course => exact absurd h_lt h_old
    | refused course => exact absurd h_lt h_old
    | @launched call launch feed' m' course start =>
      -- the call has made one handle, so this is the one
      refine ⟨call, rfl, ?_⟩
      have h_length : m'.executor.handles.length = m.executor.handles.length + 1 := by
        cases start <;> simp [Executor.newHandle, Executor.enqueue]
      have h_handle : handle = m.executor.handles.length := by
        rw [h_length] at h_lt
        exact Nat.le_antisymm (Nat.le_of_lt_succ h_lt) (Nat.le_of_not_lt h_old)
      rw [h_answer, h_handle]
    | quiet noTask same => exact absurd (same.length ▸ h_lt) h_old
    | finished live course same =>
      rw [same.length, Executor.length_resolve] at h_lt
      exact absurd h_lt h_old
    | parked live course same => exact absurd (same.length ▸ h_lt) h_old
    | ended ended => exact absurd (ended.length ▸ h_lt) h_old

/-- The completion of a call gives one of the results of the list. -/
theorem mayGive {before : List Step} {s c : Step} {call : AsyncCall} {result : FeedResult}
    (run : Run feed (before ++ [s]) m)
    (h_injects : ∀ s' ∈ before ++ [s], s'.before.state.InjectsOnly)
    (h_c : c ∈ before ++ [s]) (accepts : c.AcceptsCall call handle)
    (resolves : s.Resolves handle result) :
    call.MayGive (s.after.executor.alive = false) result := by
  rcases List.mem_append.mp h_c with h_c | h_c
  · have run' : Run feed before s.before := run.of_append rfl
    obtain ⟨h_lt, leaves⟩ := run'.leaves_of_acceptsCall h_c accepts
    -- resolved by the shutdown, or by the last turn of its task
    by_cases h_live : s.action = .executor .shutdown
    · cases Step.result_origin run'.sound resolves with
      | ended h_action waiting result_eq =>
        rw [result_eq]
        exact .ended (Step.alive_of_shutdown h_action)
      | ready other feed' h_action => cases h_live.symm.trans h_action
      | finished task h_action => cases h_live.symm.trans h_action
      | dead dead handle_eq => exact absurd handle_eq (Nat.ne_of_lt h_lt)
    · obtain ⟨-, task, live, h_turn⟩ := resolves.turn run'.sound h_lt h_live
      exact .of_turn (leaves task live) h_turn
  · obtain rfl := List.mem_singleton.mp h_c
    exact accepts.mayGive (h_injects c List.mem_concat_self) resolves

/-- In every run in which the installed injectors produce injected failures: every result that a
completion gives is that of an accepted call, is one that this call may give, and is no contract
violation; and no call is refused because attributes are sealed or a time is over, and only a
look-up because a segment is not found, which then is not mapped. -/
theorem error_channels (run : Run feed steps m)
    (h_injects : ∀ s ∈ steps, s.before.state.InjectsOnly) :
    (∀ s ∈ steps, ∀ handle result, s.Resolves handle result →
      (∃ c ∈ steps, ∃ call, c.AcceptsCall call handle) ∧
      (∀ c ∈ steps, ∀ call, c.AcceptsCall call handle →
        call.MayGive (s.after.executor.alive = false) result) ∧
      ∀ e, result = .error e → e.isContractViolation = false) ∧
    (∀ s ∈ steps, ∀ e, s.answer = .failure e →
      (∀ segment, e ≠ .segmentSealed segment) ∧ (∀ limit, e ≠ .timeout limit) ∧
      ∀ segment, e = .segmentNotFound segment →
        s.before.state.metadata.store.segment? segment = none ∧
        ∃ start length, s.action = .now (.lookUpBytes segment start length)) := by
  constructor
  · intro s h_s handle result resolves
    obtain ⟨before, rest, rfl⟩ := List.append_of_mem h_s
    -- the steps up to the one in question decide
    have run' : Run feed (before ++ [s]) s.after := (run.of_append rfl).step s.action
    have h_part : ∀ c ∈ before ++ [s], c ∈ before ++ s :: rest := by
      intro c h_c
      rw [List.append_cons]
      exact List.mem_append_left _ h_c
    have h_lt : handle < s.after.executor.handles.length :=
      (List.getElem?_eq_some_iff.mp resolves.after).1
    -- the call was accepted before its handle was resolved
    have gives : ∀ c ∈ before ++ s :: rest, ∀ call, c.AcceptsCall call handle →
        call.MayGive (s.after.executor.alive = false) result := by
      intro c h_c call accepts
      have h_c := run.mem_of_resolves h_c accepts.launch.1 resolves
      exact run'.mayGive (fun s' h_s' => h_injects s' (h_part s' h_s')) h_c accepts resolves
    obtain ⟨c, h_c, call, accepts⟩ := run'.exists_acceptsCall h_lt
    refine ⟨⟨c, h_part c h_c, call, accepts⟩, gives, ?_⟩
    rintro e rfl
    exact (gives c (h_part c h_c) call accepts).isContractViolation
  · intro s h_s e h_answer
    have refusal := Step.refusal h_answer
    generalize s.action = action at refusal ⊢
    -- a refusal with a fault carries an injected failure, the others their own errors
    cases refusal with
    | struck strikes =>
      obtain ⟨reason, rfl⟩ := (h_injects s h_s).strike strikes
      exact ⟨nofun, nofun, nofun⟩
    | unmapped not =>
      refine ⟨nofun, nofun, ?_⟩
      rintro segment ⟨⟩
      exact ⟨not, _, _, rfl⟩
    | closed | numbered | rejected | notPoint | outOfRange => exact ⟨nofun, nofun, nofun⟩

/-- A fault strikes one change of attributes, and another one finds them sealed. Then a range is
looked up in a segment that is not mapped. -/
def faultyActions : List FeedAction :=
  [.now (.makeInjector .always), .now (.inject .persistAttributes (some ⟨0⟩)),
    .later (.persist ⟨1⟩ []), .now (.inject .persistAttributes none), .later (.sealAttributes ⟨1⟩),
    .later (.persist ⟨1⟩ [⟨⟨0, 1⟩, .upsert 5⟩]), .executor (.turn 1), .executor (.turn 2),
    .now (.lookUpBytes ⟨1⟩ 0 1)]

/-- The fault and the sealed attributes are told by completions, the missing segment
by a refusal. -/
theorem error_channels_of_faultyActions : ∃ feed strike persist finish lookUp,
    Feed.make (.fresh .plain 1) .standard = .ok feed ∧
    (∀ s ∈ Step.trace ⟨feed, .fresh⟩ faultyActions, s.before.state.InjectsOnly) ∧
    (Step.trace ⟨feed, .fresh⟩ faultyActions)[2]? = some strike ∧
    (Step.trace ⟨feed, .fresh⟩ faultyActions)[5]? = some persist ∧
    (Step.trace ⟨feed, .fresh⟩ faultyActions)[7]? = some finish ∧
    (Step.trace ⟨feed, .fresh⟩ faultyActions)[8]? = some lookUp ∧
    strike.AcceptsCall (.persist ⟨1⟩ []) 0 ∧
    strike.Resolves 0 (.error (.injected "intentional failure")) ∧
    AsyncCall.MayGive (strike.after.executor.alive = false) (.persist ⟨1⟩ [])
      (.error (.injected "intentional failure")) ∧
    persist.AcceptsCall (.persist ⟨1⟩ [⟨⟨0, 1⟩, .upsert 5⟩]) 2 ∧
    finish.Resolves 2 (.error (.segmentSealed ⟨1⟩)) ∧
    AsyncCall.MayGive (finish.after.executor.alive = false)
      (.persist ⟨1⟩ [⟨⟨0, 1⟩, .upsert 5⟩]) (.error (.segmentSealed ⟨1⟩)) ∧
    lookUp.answer = .failure (.segmentNotFound ⟨1⟩) ∧
    lookUp.before.state.metadata.store.segment? ⟨1⟩ = none := by
  have h_mem : ∀ m : FeedMachine, ∀ i s, (Step.trace m faultyActions)[i]? = some s →
      s ∈ Step.trace m faultyActions := fun _ _ _ h => List.mem_of_getElem? h
  have h_injects : ∀ feed, Feed.make (.fresh .plain 1) .standard = .ok feed →
      ∀ s ∈ Step.trace ⟨feed, .fresh⟩ faultyActions, s.before.state.InjectsOnly := by
    intro feed h_make s h_s
    obtain rfl := Except.ok.inj (show Except.ok _ = Except.ok feed from h_make)
    refine .of_injectors fun i h_i => ⟨"intentional failure", ?_⟩
    revert s i
    decide
  have channels := fun feed (h_make : Feed.make (.fresh .plain 1) .standard = .ok feed) =>
    Run.error_channels (Run.perform (show Run feed [] _ from .start) faultyActions)
      (h_injects feed h_make)
  have h_new : ∀ result : FeedResult, none ≠ some (HandleState.resolved result) := by
    rintro result ⟨⟩
  have h_waiting : ∀ result : FeedResult, some .waiting ≠ some (HandleState.resolved result) := by
    rintro result ⟨⟩
  refine ⟨_, _, _, _, _, rfl, h_injects _ rfl, rfl, rfl, rfl, rfl, ⟨rfl, rfl⟩, ⟨rfl, h_new⟩, ?_,
    ⟨rfl, rfl⟩, ⟨rfl, h_waiting⟩, ?_, rfl, ?_⟩
  · exact ((channels _ rfl).1 _ (h_mem _ 2 _ rfl) 0 _ ⟨rfl, h_new⟩).2.1 _ (h_mem _ 2 _ rfl) _
      ⟨rfl, rfl⟩
  · exact ((channels _ rfl).1 _ (h_mem _ 7 _ rfl) 2 _ ⟨rfl, h_waiting⟩).2.1 _ (h_mem _ 5 _ rfl) _
      ⟨rfl, rfl⟩
  · exact (((channels _ rfl).2 _ (h_mem _ 8 _ rfl) _ rfl).2.2 _ rfl).1

end Run

end OperationFeed
