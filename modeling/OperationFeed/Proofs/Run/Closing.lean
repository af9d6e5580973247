import OperationFeed.Proofs.Run.Draining
import OperationFeed.Proofs.Run.Idle

/-!
# Closed feeds

A closed feed accepts no call whose result comes later, so after it was closed there are no new
tasks. Those that are there stay as they are until their turn, and none of them waits any longer,
since closing resolves what is pending in both slots. `ClosedTurn` lists what the last turn of each
does: readers give up, whatever they were told; those who wait for the log to drain give up as well,
unless they had been told before; and changes go through as if the feed were open.

`ClosedSince` is what stays true from the step on in which the feed is closed.
-/

namespace OperationFeed

/-- A closed feed refuses every call whose result comes later. -/
theorem AsyncCall.run_attempt_of_closed {feed : Feed} (h_closed : feed.isClosed = true) (now : Nat)
    (call : AsyncCall) : (call.attempt now).run feed = ⟨.error .closed, feed, []⟩ := by
  cases call <;> exact Feed.run_requireOpen_bind h_closed _

/-! ### The turns of tasks in a closed feed -/

/-- The task waits for something; the others make a change. -/
def FeedTask.waits : FeedTask → Bool
  | .read _ | .awaitDrain _ => true
  | _ => false

namespace Feed

/-- Whether the feed is closed does not matter for a cut. -/
theorem cut_isClosed_eq (upTo : SequenceNumber) (feed : Feed) (isClosed : Bool) :
    ({ feed with isClosed } : Feed).cut upTo = { feed.cut upTo with isClosed } := by
  unfold cut
  split <;> rfl

/-- A change does not depend on whether the feed is closed. -/
theorem effect_turn_of_not_waits {task : FeedTask} (h_task : task.waits = false) (now : Nat)
    (feed : Feed) (isClosed : Bool) :
    ((task.turn now).effect { feed with isClosed }) =
      (((task.turn now).effect feed).1, { ((task.turn now).effect feed).2 with isClosed }) := by
  cases task with
  | truncate upTo =>
    rw [FeedTask.turn, Act.effect_bind, Act.effect_bind, effect_truncate, effect_truncate,
      cut_isClosed_eq]
    -- the cut is the same, and so is what it drains
    have h_drained : ({ feed.cut upTo with isClosed } : Feed).isDrainedBy upTo =
        (feed.cut upTo).isDrainedBy upTo := rfl
    rw [h_drained]
    cases (feed.cut upTo).isDrainedBy upTo <;> rfl
  | persist segment deltas =>
    simp only [FeedTask.turn, persistNow, Act.effect_bind, Act.effect_get]
    cases feed.attributes.apply segment deltas <;> rfl
  | sealAttributes segment => rfl
  | deleteAttributes segment => rfl
  | read reader => cases h_task
  | awaitDrain w => cases h_task

/-- A change is over in one turn. -/
theorem exists_finished_of_not_waits {task : FeedTask} (h_task : task.waits = false) (now : Nat)
    (feed : Feed) : ∃ result, ((task.turn now).effect feed).1 = .finished result := by
  cases task with
  | read reader => cases h_task
  | awaitDrain w => cases h_task
  | _ => exact ⟨_, rfl⟩

/-- A reader whose notification is resolved gives up in a closed feed. -/
theorem effect_readerTurn_of_closed {now : Nat} {reader : Reader} {feed : Feed}
    (h_closed : feed.isClosed = true) (h_answer : feed.arrivals.answer? reader.waiter ≠ none) :
    (readerTurn now reader).effect feed = (.finished (.error .cancelled), feed) := by
  have course := reader_course now reader feed
  rcases h_effect : (readerTurn now reader).effect feed with ⟨turn, feed'⟩
  rw [h_effect] at course
  change ReaderCourse now reader feed turn feed' at course
  have not_open : feed.isClosed ≠ false := by rw [h_closed]; nofun
  -- it was answered, so it does not wait; the feed is closed, so it does not read
  cases course with
  | waits pending early => exact absurd pending h_answer
  | expired pending late => exact absurd pending h_answer
  | cancelled answered => rfl
  | closed answered isClosed => rfl
  | found answered isOpen serves => exact absurd isOpen not_open
  | rejoined answered isOpen serves early => exact absurd isOpen not_open
  | rejoinedExpired answered isOpen serves late => exact absurd isOpen not_open

/-- What becomes of a task in its turn, if the feed was closed while the task was there: what the
feed was before decides, together with the feed that the turn finds. -/
inductive ClosedTurn (before : Feed) (now : Nat) (feed : Feed) :
    FeedTask → FeedResult → Feed → Prop
  -- A reader gives up, even if it was told of an operation, and even if its time is over.
  | read (reader : Reader) : ClosedTurn before now feed (.read reader) (.error .cancelled) feed
  -- Those who waited for the log to drain had been told.
  | completed {w : Waiter} (answered : before.drained.answer? w = some .completed) :
      ClosedTurn before now feed (.awaitDrain w) (.ok .done) feed
  -- They had not been told.
  | cancelled {w : Waiter} (unanswered : before.drained.answer? w ≠ some .completed) :
      ClosedTurn before now feed (.awaitDrain w) (.error .cancelled) feed
  -- A change goes through as if the feed were open.
  | change {task : FeedTask} {result : FeedResult} {feed' : Feed} (notWait : task.waits = false)
      (turn : (task.turn now).effect { feed with isClosed := false } =
        (.finished result, { feed' with isClosed := false })) :
      ClosedTurn before now feed task result feed'

end Feed

/-! ### Since the feed was closed -/

/-- Closing answers everybody who waits for the log to drain; who had been told keeps the answer. -/
theorem Draining.answer?_close {feed : Feed} {tasks : List (Handle × FeedTask)}
    (h : Draining feed tasks) {handle : Handle} {w : Waiter}
    (h_mem : (handle, FeedTask.awaitDrain w) ∈ tasks) :
    ∃ outcome, (Feed.close.effect feed).2.drained.answer? w = some outcome ∧
      (outcome = .completed ↔ feed.drained.answer? w = some .completed) := by
  cases h_answer : feed.drained.answer? w with
  -- not told yet: still attached, so the feed was open and closing tells it now
  | none =>
    have attached := h.attached handle w h_mem h_answer
    have isOpen : ¬ feed.isClosed = true :=
      fun h_closed => Bool.eq_false_iff.mp (h.closed h_closed) attached.1
    refine ⟨.cancelled, ?_, by simp⟩
    rw [Feed.effect_close, if_neg isOpen]
    exact attached.answer?_resolve _
  | some outcome =>
    refine ⟨outcome, ?_, by simp⟩
    rw [Feed.effect_close]
    split
    · exact h_answer
    · exact WaitSlot.answer?_resolve_of_some h_answer _

/-- What is known of a machine since the step in which its feed was closed. -/
structure ClosedSince (close : Step) (m : FeedMachine) : Prop where
  isClosed : m.state.isClosed = true
  drained : m.state.drained = close.after.state.drained
  /-- There are no new tasks, and the old ones are as they were. -/
  tasks : ∀ p ∈ m.executor.tasks, p ∈ close.before.executor.tasks

namespace Step

variable {s : Step}

/-- Once it is closed, the feed stays closed. -/
theorem isClosed_after (h_closed : s.before.state.isClosed = true) :
    s.after.state.isClosed = true := by
  by_cases h_close : s.action = .now .close
  · rw [after, h_close]
    exact Feed.isClosed_close s.before.state
  · exact (FeedAction.keeps_isClosed h_close s.before).trans h_closed

/-- In a closed feed, nobody joins or leaves the slot of those who wait for the log to drain. -/
theorem drained_of_closed (draining : Draining s.before.state s.before.executor.tasks)
    (course : s.DrainedCourse) (h_closed : s.before.state.isClosed = true) :
    s.after.state.drained = s.before.state.drained := by
  cases course with
  | same slot log isClosed noEnd => exact slot
  | joins action isOpen busy h_after => exact absurd h_closed (Bool.eq_false_iff.mp isOpen)
  | acknowledged upTo turn h_after =>
    have h_none : s.before.state.drained.waiters = none :=
      Option.isSome_eq_false_iff.mp (draining.closed h_closed) |> Option.isNone_iff_eq_none.mp
    rw [h_after, Feed.drained_truncate, WaitSlot.resolve_of_waiters_none h_none]
    split <;> rfl
  | closed action h_after => rw [h_after, Feed.effect_close, if_pos h_closed]

end Step

namespace ClosedSince

variable {close : Step} {m : FeedMachine}

/-- The step that closes the feed starts it. -/
theorem start (h_close : close.action = .now .close) : ClosedSince close close.after := by
  refine ⟨?_, rfl, ?_⟩
  · rw [Step.after, h_close]
    exact Feed.isClosed_close close.before.state
  · intro p h_mem
    rw [Step.after, h_close] at h_mem
    exact h_mem

/-- No task waits any longer, and its turn is the last one. -/
theorem exists_turn {small : Prop} (since : ClosedSince close m)
    (h_close : close.action = .now .close)
    (draining : Draining close.before.state close.before.executor.tasks)
    (waiting : Waiting small m.state m.executor.tasks) {handle : Handle} {task : FeedTask}
    (h_mem : (handle, task) ∈ m.executor.tasks) (now : Nat) :
    task.isReady m.state now = true ∧
      ∃ result feed', (task.turn now).effect m.state = (.finished result, feed') ∧
        Feed.ClosedTurn close.before.state now m.state task result feed' := by
  -- a change is ready at any time, and does not look whether the feed is closed
  cases h_waits : task.waits with
  | false =>
    obtain ⟨result, h_result⟩ := Feed.exists_finished_of_not_waits h_waits now m.state
    have h_turn := Feed.effect_turn_of_not_waits h_waits now m.state false
    rw [h_result] at h_turn
    refine ⟨?_, result, _, Prod.ext h_result rfl, .change h_waits h_turn⟩
    cases task <;> first | rfl | cases h_waits
  | true =>
  cases task with
  | read reader =>
    -- closing has resolved the slot, so no reader waits in it
    have h_lt := waiting.no_waiter (waiting.closed since.isClosed) h_mem
    have h_answer : m.state.arrivals.answer? reader.waiter ≠ none := by
      rw [Ne, WaitSlot.answer?_eq_none]
      exact Nat.not_le_of_lt h_lt
    refine ⟨?_, _, _, Feed.effect_readerTurn_of_closed since.isClosed h_answer, .read reader⟩
    rw [FeedTask.isReady, Option.isSome_iff_ne_none.mpr h_answer, Bool.true_or]
  | awaitDrain w =>
    -- closing has answered it, unless it had been told
    obtain ⟨outcome, h_answer, h_iff⟩ := draining.answer?_close (since.tasks _ h_mem)
    have h_drained : m.state.drained = (Feed.close.effect close.before.state).2.drained := by
      rw [since.drained, Step.after, h_close]
      rfl
    rw [← h_drained] at h_answer
    have h_turn : ((FeedTask.awaitDrain w).turn now).effect m.state =
        (.finished outcome.result, m.state) := by
      rw [FeedTask.turn, Feed.effect_awaitDrainTurn, h_answer]
    refine ⟨by rw [FeedTask.isReady, h_answer, Option.isSome_some], _, _, h_turn, ?_⟩
    cases outcome with
    | completed => exact .completed (h_iff.mp rfl)
    | cancelled => exact .cancelled fun h_completed => by cases h_iff.mpr h_completed
  | _ => cases h_waits

/-- Each later step keeps it. -/
theorem step {small : Prop} {s : Step} (since : ClosedSince close s.before)
    (h_close : close.action = .now .close)
    (draining_close : Draining close.before.state close.before.executor.tasks)
    (draining : Draining s.before.state s.before.executor.tasks)
    (waiting : Waiting small s.before.state s.before.executor.tasks)
    (h_sound : s.before.executor.Sound) (h_alive : s.before.executor.alive = true)
    (h_live : s.action ≠ .executor .shutdown) : ClosedSince close s.after := by
  refine ⟨Step.isClosed_after since.isClosed, ?_, ?_⟩
  · have course := s.drained_course h_sound h_alive h_live
    exact (Step.drained_of_closed draining course since.isClosed).trans since.drained
  · rintro ⟨handle, task⟩ h_mem
    cases Step.task_origin h_sound h_mem with
    | kept live => exact since.tasks _ live
    | launched call feed' h_action h_handle h_answer course =>
      -- a closed feed refuses the call
      have accepts : s.AcceptsCall call handle := ⟨h_action, h_answer⟩
      obtain ⟨-, launch, feed', h_attempt, -⟩ := accepts.launch
      have h_value := congrArg Prod.fst h_attempt
      rw [Attempt.effect, Act.effect, Attempt.run_tryOut,
        AsyncCall.run_attempt_of_closed since.isClosed] at h_value
      cases h_value
    | parked task' h_action live course =>
      obtain ⟨-, result, feed', h_turn, -⟩ :=
        since.exists_turn h_close draining_close waiting live s.before.executor.clock
      -- the turn was the last one, so the task cannot be parked
      have finishes := Step.finishes_of_turn h_sound h_action live (congrArg Prod.fst h_turn)
      exact absurd h_mem (finishes.gone task)

end ClosedSince

namespace Run

variable {feed : Feed} {before rest : List Step} {close : Step} {m : FeedMachine}

/-- From the step that closes the feed on, a run keeps it. -/
theorem closedSince (h_new : feed.IsNew) (h_slot : feed.drained = ∅)
    (run : Run feed (before ++ close :: rest) m)
    (h_live : ∀ s ∈ before ++ close :: rest, s.action ≠ .executor .shutdown)
    (h_close : close.action = .now .close) : ClosedSince close m := by
  have draining : Draining close.before.state close.before.executor.tasks :=
    .of_run h_slot (run.of_append rfl) fun s h_s => h_live s (List.mem_append_left _ h_s)
  refine run.since h_live (.start h_close) ?_
  intro rest s run' h_live' h_last since
  exact since.step h_close draining (.of_run h_slot run' h_live') (.of_told h_new run' h_live')
    run'.sound (run'.alive h_live') h_last

/-- A task stays as it is until its turn. -/
theorem stays_until_turn (run : Run feed (before ++ close :: rest) m)
    (h_live : ∀ s ∈ before ++ close :: rest, s.action ≠ .executor .shutdown) {handle : Handle}
    {task : FeedTask} (h_mem : (handle, task) ∈ close.after.executor.tasks) :
    (handle, task) ∈ m.executor.tasks ∨
      ∃ s ∈ rest, s.action = .executor (.turn handle) ∧
        (handle, task) ∈ s.before.executor.tasks := by
  refine run.since h_live (.inl h_mem) ?_
  intro rest s run' h_live' h_last h_there
  -- there until now, or its turn has come already
  rcases h_there with h_there | ⟨c, h_c, h_turn⟩
  · cases Step.task_fate run'.sound h_there with
    | kept live => exact .inl live
    | parked task' h_action live course =>
      exact .inr ⟨s, List.mem_concat_self, h_action, h_there⟩
    | finished result h_action course =>
      exact .inr ⟨s, List.mem_concat_self, h_action, h_there⟩
    | ended h_action => exact absurd h_action h_last
  · exact .inr ⟨c, List.mem_append_left _ h_c, h_turn⟩

end Run

end OperationFeed
