import OperationFeed.Proofs.Run.Basic

/-!
# What lies beside the operations

A feed keeps a few things beside its operations and those who wait for them: attributes, recorded
bytes, its configuration, the faults that are installed, whether it is closed, and the number of the
last checkpoint that it inserted. Which part of the feed is meant is said by a view of it, and
`Feed.Beside view` that the view shows nothing of the operations. Whatever a feed does to its
operations then keeps the view (`Act.Keeps`), and this is proved once for all views.

What is left to look at are the calls and the tasks that change more than operations
(`FeedCall.changesMore`, `FeedTask.changesAttributes`): an action keeps a view if these do
(`Feed.Beside.keeps_perform`). So only two calls touch the recorded bytes
(`FeedAction.keeps_fragments`), only one call closes the feed (`FeedAction.keeps_isClosed`), only
adding inserts a checkpoint (`FeedAction.keeps_lastAutoCheckpoint`), and nothing changes the
configuration (`FeedAction.keeps_config`).
-/

namespace OperationFeed

namespace Feed

variable {γ : Type} {view : Feed → γ}

/-- What is seen through the view does not depend on the metadata, the log, the slots, and the
counts of injectors. -/
structure Beside (view : Feed → γ) : Prop where
  metadata (feed : Feed) (metadata : Metadata) : view { feed with metadata } = view feed
  log (feed : Feed) (log : Log Operation) : view { feed with log } = view feed
  arrivals (feed : Feed) (arrivals : WaitSlot) : view { feed with arrivals } = view feed
  drained (feed : Feed) (drained : WaitSlot) : view { feed with drained } = view feed
  injectors (feed : Feed) (injectors : InjectorBank) : view { feed with injectors } = view feed

/-- Events are told beside the feed. -/
theorem keeps_tell (event : Event) : (tell event).Keeps view := fun _ => rfl

/-- The check for an open feed changes nothing. -/
theorem keeps_requireOpen : requireOpen.Keeps view := by
  intro feed
  rw [Attempt.effect_tryOut, effect_requireOpen]

namespace Beside

variable (h : Beside view)

include h

/-- What is done to the metadata is not seen. -/
theorem keeps_onMetadata {α : Type} (a : Act Metadata α) : (onMetadata a).Keeps view :=
  .onPart h.metadata

/-- What is counted at a fault point is not seen. -/
theorem keeps_checkFault (point : FaultPoint) : (checkFault point).Keeps view :=
  .bind .get fun _ => .onPart h.injectors

theorem keeps_failAt (point : FaultPoint) : (failAt point).Keeps view := by
  intro feed
  rw [Attempt.effect_tryOut, effect_failAt]
  exact h.keeps_checkFault point feed

theorem keeps_launchUnlessFault (point : FaultPoint) (task : FeedTask) :
    (launchUnlessFault point task).Keeps view := by
  intro feed
  rw [Attempt.effect_tryOut, effect_launchUnlessFault]
  exact h.keeps_checkFault point feed

theorem keeps_resolveArrivals (outcome : WaitOutcome) : (resolveArrivals outcome).Keeps view :=
  .of_modifyGet fun feed => h.arrivals feed _

/-! ### Adding -/

/-- An append changes the metadata and the log. -/
theorem keeps_append (op : Operation) : (append op).Keeps view := by
  intro feed
  rw [Attempt.effect_tryOut, effect_append]
  split
  · next log _ =>
    calc view { feed with metadata := feed.metadata.numbered op, log }
      _ = view { feed with metadata := feed.metadata.numbered op } :=
        h.log { feed with metadata := feed.metadata.numbered op } log
      _ = view feed := h.metadata feed _
  · exact h.metadata feed _

/-- The end of an add tells the readers, too. -/
theorem keeps_finishAdd (op : Operation) : (finishAdd op).Keeps view := by
  refine .bind (h.keeps_append op) fun _ => .bind (.lift (h.keeps_resolveArrivals _)) fun _ => ?_
  exact .ite (.bind (.lift (keeps_tell _)) fun _ => .pure _) (.pure _)

section Inserting

variable (h_last : ∀ feed lastAutoCheckpoint, view { feed with lastAutoCheckpoint } = view feed)

include h_last

/-- A checkpoint that is inserted is remembered, so that must not be seen either. -/
theorem keeps_insertCheckpoint : insertCheckpoint.Keeps view := by
  refine .bind (h.keeps_append _) fun number => .bind (.of_modify ?_) fun _ => .lift (keeps_tell _)
  exact fun feed => h_last feed number

/-- An add, with the checkpoint that may come before it. -/
theorem keeps_add (op : Operation) : (add op).Keeps view := by
  refine .bind keeps_requireOpen fun _ => ?_
  dsimp only
  split
  · exact .throw _
  · refine .bind (h.keeps_failAt .add) fun _ => .bind .get fun _ => .ite ?_ ?_
    · exact .bind (h.keeps_insertCheckpoint h_last) fun _ => h.keeps_finishAdd op
    · exact h.keeps_finishAdd op

end Inserting

/-! ### Reading and waiting -/

/-- A try to read may join the slot of the readers. -/
theorem keeps_tryRead (after : SequenceNumber) (max : Nat) : (tryRead after max).Keeps view := by
  intro feed
  rw [Attempt.effect_tryOut, effect_tryRead]
  split
  · rfl
  · split
    · rfl
    · exact h.arrivals feed _

/-- So may a read when it is made. -/
theorem keeps_read (now : Nat) (after : SequenceNumber) (max : Nat) (timeout : Duration) :
    (read now after max timeout).Keeps view := by
  refine .bind keeps_requireOpen fun _ => .bind (h.keeps_failAt .readSync) fun _ => ?_
  refine .bind (.lift (h.keeps_checkFault .readAsync)) fun struck => ?_
  cases struck with
  | some e => exact .pure _
  | none =>
    -- served or waiting, the rest is to tell
    refine .bind (h.keeps_tryRead after max) fun found => ?_
    cases found with
    | ready operations => exact .pure _
    | wait waiter => exact .bind (.lift (keeps_tell _)) fun _ => .pure _

/-- A turn of a reader may leave that slot and join it again. -/
theorem keeps_readerTurn (now : Nat) (reader : Reader) : (readerTurn now reader).Keeps view := by
  intro feed
  have course := reader_course now reader feed
  generalize ((readerTurn now reader).effect feed).1 = turn,
    ((readerTurn now reader).effect feed).2 = feed' at course ⊢
  cases course with
  | waits | cancelled | closed | found => rfl
  | expired | rejoined | rejoinedExpired => exact h.arrivals feed _

/-- Who waits for the log to drain may join the other slot. -/
theorem keeps_awaitDrain : awaitDrain.Keeps view := by
  intro feed
  have course := awaitDrain_course feed
  rw [Attempt.effect_tryOut]
  generalize (awaitDrain.effect feed).1 = result, (awaitDrain.effect feed).2 = feed' at course ⊢
  cases course with
  | refused | drained => rfl
  | waits => exact h.drained feed _

/-! ### Acknowledging -/

/-- Making an acknowledgement asks the metadata, and counts the call. -/
theorem keeps_acknowledge (upTo : SequenceNumber) : (acknowledge upTo).Keeps view := by
  refine .bind keeps_requireOpen fun _ => .bind (.lift (h.keeps_onMetadata _)) fun isPoint => ?_
  cases isPoint with
  | false => exact .throw _
  | true => exact .bind (h.keeps_failAt .ackSync) fun _ => h.keeps_launchUnlessFault _ _

/-- Carrying it out changes the log, the metadata and the slot of drain waits. -/
theorem keeps_truncate (upTo : SequenceNumber) : (truncate upTo).Keeps view := by
  intro feed
  have h_cut : view (feed.cut upTo) = view feed := by
    unfold cut
    split
    · calc view _
        _ = view { feed with log := (feed.log.truncate upTo).2 } := h.metadata _ _
        _ = view feed := h.log feed _
    · rfl
  rw [effect_truncate]
  split
  · exact (h.drained _ _).trans h_cut
  · exact h_cut

/-! ### Appended bytes -/

theorem keeps_admitLookup : admitLookup.Keeps view :=
  .bind keeps_requireOpen fun _ => h.keeps_failAt _

/-- A look-up of bytes asks the metadata. -/
theorem keeps_lookUpBytes (segment : SegmentId) (start : UInt64) (length : Nat) :
    (lookUpBytes segment start length).Keeps view := by
  refine .bind (.lift (h.keeps_onMetadata _)) fun info => ?_
  cases info with
  | none => exact .throw _
  | some info =>
    dsimp only
    split
    · exact .throw _
    · exact .bind .get fun _ => .ite (.bind (.lift (keeps_tell _)) fun _ => .pure _) (.pure _)

end Beside

end Feed

/-! ### Actions -/

/-- The call may change something else than operations and those who wait: the number of the last
checkpoint that was inserted, the recorded bytes, a setting, or whether the feed is closed. -/
def FeedCall.changesMore : FeedCall → Bool
  | .add _ | .recordAppend .. | .clearAppendData | .setAckEffective _ | .inject .. | .close => true
  | _ => false

namespace Feed.Beside

variable {γ : Type} {view : Feed → γ} (h : Beside view)

include h

/-- Of the calls that are answered at once, those need a look that change more. -/
theorem keeps_call {call : FeedCall} (h_more : call.changesMore = true → call.act.Keeps view) :
    call.act.Keeps view := by
  cases call with
  | add | recordAppend | clearAppendData | setAckEffective | inject | close => exact h_more rfl
  | metadata request => exact h.keeps_onMetadata _
  | admitLookup => exact .bind h.keeps_admitLookup fun _ => .pure _
  | lookUpBytes segment start length =>
    exact .bind (h.keeps_lookUpBytes segment start length) fun _ => .pure _
  | admitMerge => exact .bind keeps_requireOpen fun _ => .pure _
  | isTruncationPoint | closestTruncationPoint | segmentInfo =>
    exact .bind (h.keeps_onMetadata _) fun _ => .pure _
  | makeInjector injector =>
    exact .bind (.of_modify fun feed => h.injectors feed _) fun _ => .pure _

/-- Making a call whose result comes later changes nothing that can be seen. -/
theorem keeps_attempt (now : Nat) (call : AsyncCall) : (call.attempt now).Keeps view := by
  cases call with
  | read after max timeout => exact h.keeps_read now after max timeout
  | acknowledge upTo => exact h.keeps_acknowledge upTo
  | persist | sealAttributes | deleteAttributes =>
    exact .bind keeps_requireOpen fun _ => h.keeps_launchUnlessFault _ _
  | awaitDrain => exact h.keeps_awaitDrain

/-- Of the turns of tasks, those need a look that change attributes. -/
theorem keeps_turn (now : Nat) {task : FeedTask}
    (h_more : task.changesAttributes = true → (task.turn now).Keeps view) :
    (task.turn now).Keeps view := by
  cases task with
  | persist | sealAttributes | deleteAttributes => exact h_more rfl
  | truncate upTo => exact .bind (h.keeps_truncate upTo) fun _ => .pure _
  | read reader => exact h.keeps_readerTurn now reader
  | awaitDrain waiter =>
    intro feed
    show view ((awaitDrainTurn waiter).effect feed).2 = view feed
    rw [awaitDrainTurn_state]

/-- To abandon a task is at most to leave a slot. -/
theorem keeps_abandon (task : FeedTask) : task.abandon.Keeps view := by
  cases task with
  | read reader => exact .of_modify fun feed => h.arrivals feed _
  | awaitDrain waiter => exact .of_modify fun feed => h.drained feed _
  | truncate | persist | sealAttributes | deleteAttributes => exact .pure _

/-- An action keeps the view unless it is a call that changes more, or lets a task change it. -/
theorem keeps_perform {action : FeedAction}
    (h_call : ∀ call, action = .now call → call.changesMore = true → call.act.Keeps view)
    (h_task : ∀ (now : Nat) (task : FeedTask),
      task.changesAttributes = true → (task.turn now).Keeps view) :
    action.perform.Keeps (fun m => view m.state) := by
  cases action with
  | now call => exact fun m => h.keeps_call (h_call call rfl) m.state
  -- the call itself, and then the start of its task
  | later call =>
    refine .bind (.bind .get fun m => .bind ?_ fun launch => ?_) fun _ => .pure _
    · exact fun m' => h.keeps_attempt m.executor.clock call m'.state
    · cases launch with
      | error e => exact .pure _
      | ok launch => exact .bind (Machine.keeps_start h.keeps_abandon launch) fun _ => .pure _
  | executor move =>
    refine .bind (Machine.keeps_move (fun now task => ?_) h.keeps_abandon move) fun _ => .pure _
    exact h.keeps_turn now (h_task now task)

end Feed.Beside

/-! ### Views of single fields -/

/-- Changing attributes keeps every view in which attributes are not seen. -/
theorem FeedTask.keeps_of_changesAttributes {γ : Type} {view : Feed → γ}
    (h : ∀ feed attributes, view { feed with attributes } = view feed) (now : Nat) {task : FeedTask}
    (h_task : task.changesAttributes = true) : (task.turn now).Keeps view := by
  cases task with
  | persist segment deltas =>
    refine .bind (.of_get fun feed => ?_) fun _ => .pure _
    split
    · rfl
    · exact h feed _
  | sealAttributes segment => exact fun feed => h feed _
  | deleteAttributes segment => exact fun feed => h feed _
  | truncate | read | awaitDrain => cases h_task

/-- The call records bytes, or forgets all that are recorded. -/
def FeedCall.movesBytes : FeedCall → Bool
  | .recordAppend .. | .clearAppendData => true
  | _ => false

namespace Feed.Beside

variable {γ : Type} {view : Feed → γ} (h : Beside view)

include h

/-- Closing resolves both slots and sets the flag. -/
theorem keeps_close (h_closed : ∀ feed isClosed, view { feed with isClosed } = view feed) :
    close.Keeps view := by
  intro feed
  rw [effect_close]
  show view (if feed.isClosed then feed else _) = view feed
  split
  · rfl
  · have h_arrivals :=
      h.arrivals { feed with isClosed := true } (feed.arrivals.resolve .cancelled).2
    exact (h.drained _ _).trans (h_arrivals.trans (h_closed feed true))

/-- An action keeps a view that sees neither attributes nor settings, nor what the
action is about. -/
theorem keeps_of_unseen {action : FeedAction}
    (h_attributes : ∀ feed attributes, view { feed with attributes } = view feed)
    (h_settings : ∀ feed ackEffective faults, view { feed with ackEffective, faults } = view feed)
    (h_last : (∃ op, action = .now (.add op)) →
      ∀ feed lastAutoCheckpoint, view { feed with lastAutoCheckpoint } = view feed)
    (h_fragments : (∃ call, action = .now call ∧ call.movesBytes = true) →
      ∀ feed fragments, view { feed with fragments } = view feed)
    (h_closed : action = .now .close → ∀ feed isClosed, view { feed with isClosed } = view feed) :
    action.perform.Keeps (fun m => view m.state) := by
  refine h.keeps_perform ?_ fun now task => FeedTask.keeps_of_changesAttributes h_attributes now
  intro call h_action h_more
  -- each of the calls that change more changes one thing, which is not seen
  cases call with
  | add op => exact .bind (h.keeps_add (h_last ⟨op, h_action⟩) op) fun _ => .pure _
  | recordAppend segment offset data =>
    have h_record : (recordAppend segment offset data).Keeps view :=
      .bind keeps_requireOpen fun _ => .bind (.lift (keeps_tell _)) fun _ =>
        .of_modify fun feed => h_fragments ⟨_, h_action, rfl⟩ feed _
    exact .bind h_record fun _ => .pure _
  | clearAppendData =>
    refine .bind (.bind (.of_modify fun feed => ?_) fun _ => keeps_tell _) fun _ => .pure _
    exact h_fragments ⟨_, h_action, rfl⟩ feed _
  | setAckEffective | inject =>
    exact .bind (.of_modify fun feed => h_settings feed _ _) fun _ => .pure _
  | close => exact .bind (h.keeps_close (h_closed h_action)) fun _ => .pure _
  | _ => cases h_more

end Feed.Beside

namespace FeedAction

variable {action : FeedAction}

/-- Only two calls touch the recorded bytes. -/
theorem keeps_fragments (h_action : ∀ call, action = .now call → call.movesBytes = false) :
    action.perform.Keeps (fun m => m.state.fragments) := by
  have beside : Feed.Beside Feed.fragments :=
    ⟨fun _ _ => rfl, fun _ _ => rfl, fun _ _ => rfl, fun _ _ => rfl, fun _ _ => rfl⟩
  refine beside.keeps_of_unseen (fun _ _ => rfl) (fun _ _ _ => rfl) (fun _ _ _ => rfl) ?_
    (fun _ _ _ => rfl)
  rintro ⟨call, h_call, h_moves⟩
  rw [h_action call h_call] at h_moves
  cases h_moves

/-- Only closing it closes the feed. -/
theorem keeps_isClosed (h_close : action ≠ .now .close) :
    action.perform.Keeps (fun m => m.state.isClosed) := by
  have beside : Feed.Beside Feed.isClosed :=
    ⟨fun _ _ => rfl, fun _ _ => rfl, fun _ _ => rfl, fun _ _ => rfl, fun _ _ => rfl⟩
  exact beside.keeps_of_unseen (fun _ _ => rfl) (fun _ _ _ => rfl) (fun _ _ _ => rfl)
    (fun _ _ _ => rfl) fun h_eq => absurd h_eq h_close

/-- Only adding inserts a checkpoint. -/
theorem keeps_lastAutoCheckpoint (h_add : ∀ op, action ≠ .now (.add op)) :
    action.perform.Keeps (fun m => m.state.lastAutoCheckpoint) := by
  have beside : Feed.Beside Feed.lastAutoCheckpoint :=
    ⟨fun _ _ => rfl, fun _ _ => rfl, fun _ _ => rfl, fun _ _ => rfl, fun _ _ => rfl⟩
  refine beside.keeps_of_unseen (fun _ _ => rfl) (fun _ _ _ => rfl) ?_ (fun _ _ _ => rfl)
    (fun _ _ _ => rfl)
  rintro ⟨op, h_op⟩
  exact absurd h_op (h_add op)

/-- Nothing changes the configuration. -/
theorem keeps_config (action : FeedAction) : action.perform.Keeps (fun m => m.state.config) := by
  have beside : Feed.Beside Feed.config :=
    ⟨fun _ _ => rfl, fun _ _ => rfl, fun _ _ => rfl, fun _ _ => rfl, fun _ _ => rfl⟩
  exact beside.keeps_of_unseen (fun _ _ => rfl) (fun _ _ _ => rfl) (fun _ _ _ => rfl)
    (fun _ _ _ => rfl) (fun _ _ _ => rfl)

end FeedAction

/-! ### Runs -/

/-- Unless an action closes it, the feed stays as open or closed as it was. -/
theorem Step.isClosed_final {actions : List FeedAction} (h_close : FeedAction.now .close ∉ actions)
    (m : FeedMachine) : (Step.final m actions).state.isClosed = m.state.isClosed := by
  induction actions generalizing m with
  | nil => rfl
  | cons action rest ih =>
    have h_action : action ≠ .now .close := fun h_eq => h_close (h_eq ▸ List.mem_cons_self ..)
    calc (Step.final (Step.after ⟨m, action⟩) rest).state.isClosed
      _ = (Step.after ⟨m, action⟩).state.isClosed := ih (List.not_mem_of_not_mem_cons h_close) _
      _ = m.state.isClosed := FeedAction.keeps_isClosed h_action m

/-- A run never changes the configuration. -/
theorem Run.config_eq {feed : Feed} {steps : List Step} {m : FeedMachine}
    (run : Run feed steps m) : m.state.config = feed.config := by
  induction run with
  | start => rfl
  | @step steps m run action ih =>
    calc (Step.after ⟨m, action⟩).state.config
      _ = m.state.config := FeedAction.keeps_config action m
      _ = feed.config := ih

end OperationFeed
