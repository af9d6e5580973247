import OperationFeed.Proofs.Run.Beside
import OperationFeed.Proofs.Run.History
import OperationFeed.Proofs.Run.Turns

/-!
# Waiting for the log to drain

All who wait for the log to drain share one slot, and they are told by acknowledgements that have
their turn, or by the end of the feed. `Step.endsWaits?` says which steps end the waits, and how; it
is about the step alone and not about those who wait.

* `Step.DrainedCourse` lists what a step can do to the slot;
* `Draining` is what stays true of the slot and the tasks: a notification is pending only while
  there is something in the log, and who has no answer waits for the pending notification;
* `DrainStands` says how it stands with one wait, and `Run.drainStands` that this is decided by the
  first step since the call that has ended the waits, and by no other.

`Run.drain_outcome` puts this together for every facade.
-/

namespace OperationFeed

/-! ### Steps -/

namespace Step

/-- How the step ends the waits for the log to drain, if it does. Closing the feed gives them up.
The turn of an acknowledgement completes them if it leaves the log empty, or nothing in the log
above its number. -/
def endsWaits? (s : Step) : Option WaitOutcome :=
  match s.action with
  | .now .close => some .cancelled
  | .executor (.turn handle) =>
    match s.before.executor.tasks.lookup handle with
    | some (.truncate upTo) =>
      if s.after.state.log.isEmpty ||
          s.after.state.log.lastNumber?.any (fun last => last ≤ upTo) then
        some .completed
      else none
    | _ => none
  | _ => none

variable {s : Step} {handle : Handle} {w : Waiter}

/-- The turn of an acknowledgement completes the waits exactly if the log is drained after it. -/
theorem endsWaits?_truncate {upTo : SequenceNumber} (turn : s.IsTurnOf (.truncate upTo)) :
    s.endsWaits? = if s.after.state.isDrainedBy upTo then some .completed else none := by
  obtain ⟨handle, h_action, live⟩ := turn
  rw [endsWaits?, h_action]
  simp only [live, Feed.isDrainedBy_eq]

/-- A step that neither closes the feed nor acknowledges ends no wait. -/
theorem endsWaits?_eq_none (h_close : s.action ≠ .now .close)
    (h_turn : ∀ upTo, ¬ s.IsTurnOf (.truncate upTo)) : s.endsWaits? = none := by
  unfold endsWaits?
  split
  · next h_action => exact absurd h_action h_close
  · next handle h_action =>
    split
    · next upTo live => exact absurd ⟨handle, h_action, live⟩ (h_turn upTo)
    · rfl
  · rfl

/-- Only closing gives the waits up, and only a turn of an acknowledgement completes them. -/
theorem exists_turn_of_completed (h : s.endsWaits? = some .completed) :
    ∃ upTo, s.IsTurnOf (.truncate upTo) := by
  unfold endsWaits? at h
  split at h
  · cases h
  · next handle h_action =>
    split at h
    · next upTo live => exact ⟨upTo, handle, h_action, live⟩
    · cases h
  · cases h

/-- While acknowledgements are effective, the waits are completed by those that leave
the log empty. -/
theorem endsWaits?_eq_completed_iff (h_sound : s.before.executor.Sound)
    (h_effective : s.before.state.ackEffective = true) :
    s.endsWaits? = some .completed ↔
      (∃ upTo, s.IsTurnOf (.truncate upTo)) ∧ s.after.state.log.isEmpty = true := by
  -- an effective acknowledgement drains the log only by emptying it
  have of_turn : ∀ upTo, s.IsTurnOf (.truncate upTo) →
      (s.endsWaits? = some .completed ↔ s.after.state.log.isEmpty = true) := by
    intro upTo turn
    have h_drained : s.after.state.isDrainedBy upTo = s.after.state.log.isEmpty := by
      rw [turn.state_eq h_sound]
      exact Feed.isDrainedBy_truncate h_effective
    rw [endsWaits?_truncate turn, h_drained]
    cases s.after.state.log.isEmpty <;> simp
  constructor
  · intro h_completed
    obtain ⟨upTo, turn⟩ := exists_turn_of_completed h_completed
    exact ⟨⟨upTo, turn⟩, (of_turn upTo turn).mp h_completed⟩
  · rintro ⟨⟨upTo, turn⟩, h_empty⟩
    exact (of_turn upTo turn).mpr h_empty

/-- Closing, waiting and acknowledging apart, no step touches the slot. -/
theorem drained_eq (h_alive : s.before.executor.alive = true)
    (h_live : s.action ≠ .executor .shutdown) (h_close : s.action ≠ .now .close)
    (h_turn : ∀ upTo, ¬ s.IsTurnOf (.truncate upTo)) (h_wait : s.action ≠ .later .awaitDrain) :
    s.after.state.drained = s.before.state.drained := by
  have course := s.course
  generalize h_action : s.action = action, s.answer = answer, s.after = m' at course ⊢
  -- a call whose result comes later joins the slot only if it is such a wait
  have of_later : ∀ {call result feed'}, action = .later call →
      Feed.AsyncCourse s.before.executor.clock s.before.state call result feed' →
        feed'.drained = s.before.state.drained := by
    intro call result feed' h_later course
    cases course with
    | read course =>
      cases course with
      | refused same => exact same.drained
      | struck same strikes => exact same.drained
      | found same isOpen serves => exact same.drained
      | waits same isOpen serves => exact same.drained
    | acknowledge same point task => exact same.drained
    | attributes same notRead task => exact same.drained
    | drain course => exact absurd (h_action.trans h_later) h_wait
  -- a turn touches the slot only if it is that of an acknowledgement
  have of_turn : ∀ {other task turn feed'}, action = .executor (.turn other) →
      s.before.executor.tasks.lookup other = some task →
        Feed.TurnCourse s.before.executor.clock s.before.state task turn feed' →
          feed'.drained = s.before.state.drained := by
    intro other task turn feed' h_move live course
    cases course with
    | truncated upTo => exact absurd ⟨other, h_action.trans h_move, live⟩ (h_turn upTo)
    | attributes same changes => exact same.drained
    | read course => cases course <;> rfl
    | drain same => rfl
  cases course with
  | called course =>
    cases course with
    | outside same notAdd => exact same.drained
    | metadata request => rfl
    | added course => exact course.drained
    | toggled effective => rfl
    | closed => exact absurd h_action h_close
  | refused course => exact of_later rfl course
  | launched course start =>
    have h_drained := of_later rfl course
    cases start with
    | ready result => exact h_drained
    | task task alive => exact h_drained
    | dead task dead => exact absurd h_alive (Bool.eq_false_iff.mp dead)
  | quiet noTask same => rfl
  | finished live course same => exact of_turn rfl live course
  | parked live course same => exact of_turn rfl live course
  | ended ended => exact absurd h_action h_live

/-- Only acknowledgements empty the log. -/
theorem isEmpty_of_after (h_turn : ∀ upTo, ¬ s.IsTurnOf (.truncate upTo))
    (h : s.after.state.log.isEmpty = true) : s.before.state.log.isEmpty = true := by
  cases s.log_course with
  | grows noCut grows =>
    rw [Log.isEmpty, grows.entries, List.isEmpty_iff, List.append_eq_nil_iff] at h
    rw [Log.isEmpty, List.isEmpty_iff]
    exact h.1
  | cut upTo cut appended log => exact absurd (isTurnOf_of_cut cut) (h_turn upTo)

/-- What a step can do to the slot of those who wait for the log to drain. -/
inductive DrainedCourse (s : Step) : Prop
  -- Nothing, and the log does not become empty.
  | same (slot : s.after.state.drained = s.before.state.drained)
      (log : s.after.state.log.isEmpty = true → s.before.state.log.isEmpty = true)
      (isClosed : s.after.state.isClosed = s.before.state.isClosed) (noEnd : s.endsWaits? = none)
  -- One more waits, while others do or there is something in the log.
  | joins (action : s.action = .later .awaitDrain) (isOpen : s.before.state.isClosed = false)
      (busy : s.before.state.drained.isPending = true ∨ s.before.state.log.isEmpty = false)
      (after : s.after.state =
        { s.before.state with drained := s.before.state.drained.join.2 })
  -- An acknowledgement has its turn.
  | acknowledged (upTo : SequenceNumber) (turn : s.IsTurnOf (.truncate upTo))
      (after : s.after.state = ((Feed.truncate upTo).effect s.before.state).2)
  -- The feed is closed.
  | closed (action : s.action = .now .close)
      (after : s.after.state = (Feed.close.effect s.before.state).2)

/-- Every step of a living executor takes one of these courses. -/
theorem drained_course (h_sound : s.before.executor.Sound)
    (h_alive : s.before.executor.alive = true) (h_live : s.action ≠ .executor .shutdown) :
    s.DrainedCourse := by
  by_cases h_close : s.action = .now .close
  · refine .closed h_close ?_
    rw [after, h_close]
    rfl
  by_cases h_turn : ∃ upTo, s.IsTurnOf (.truncate upTo)
  · obtain ⟨upTo, turn⟩ := h_turn
    exact .acknowledged upTo turn (turn.state_eq h_sound)
  have h_turn : ∀ upTo, ¬ s.IsTurnOf (.truncate upTo) := not_exists.mp h_turn
  have noEnd := endsWaits?_eq_none h_close h_turn
  have isClosed : s.after.state.isClosed = s.before.state.isClosed :=
    FeedAction.keeps_isClosed h_close s.before
  by_cases h_wait : s.action = .later .awaitDrain
  · have h_after := state_of_later h_alive h_wait
    rw [AsyncCall.attempt, Feed.effect_awaitDrain] at h_after
    -- refused in a closed feed, over at once, or one more who waits
    split at h_after
    · exact .same (by rw [h_after]) (isEmpty_of_after h_turn) isClosed noEnd
    · next isOpen =>
      split at h_after
      · exact .same (by rw [h_after]) (isEmpty_of_after h_turn) isClosed noEnd
      · next busy =>
        refine .joins h_wait (Bool.eq_false_iff.mpr isOpen) ?_ h_after
        -- the wait was not over at once, so there is a reason for it
        cases h_pending : s.before.state.drained.isPending with
        | true => exact .inl rfl
        | false =>
          rw [h_pending, Bool.not_false, Bool.true_and, Bool.not_eq_true] at busy
          exact .inr busy
  · exact .same (drained_eq h_alive h_live h_close h_turn h_wait) (isEmpty_of_after h_turn) isClosed
      noEnd

/-- As far as a waiter can see, the slot was joined, resolved, or left alone. -/
theorem DrainedCourse.moves (course : s.DrainedCourse) :
    s.before.state.drained.Moves s.after.state.drained := by
  cases course with
  | same slot log isClosed noEnd =>
    rw [slot]
    exact .same
  | joins action isOpen busy h_after =>
    rw [h_after]
    exact .joined
  | acknowledged upTo turn h_after =>
    rw [h_after, Feed.drained_truncate]
    split
    · exact .resolved _
    · exact .same
  | closed action h_after =>
    rw [h_after, Feed.effect_close]
    split
    · exact .same
    · exact .resolved _

/-- One who waits for the log to drain did so before the step, or joins the slot in it. -/
theorem waiter_origin (h_sound : s.before.executor.Sound)
    (h_alive : s.before.executor.alive = true)
    (h : (handle, FeedTask.awaitDrain w) ∈ s.after.executor.tasks) :
    (handle, FeedTask.awaitDrain w) ∈ s.before.executor.tasks ∨
      (s.action = .later .awaitDrain ∧ s.after.state.drained.IsAttached w) := by
  cases task_origin h_sound h with
  | kept live => exact .inl live
  | launched call feed' h_action h_handle h_answer course =>
    have accepts : s.AcceptsCall call handle := ⟨h_action, h_answer⟩
    have h_attempt := accepts.attempt_eq h_sound h
    cases course with
    | read course => cases course
    | acknowledge same point task => cases task _ rfl
    | attributes same notRead task => cases task _ rfl
    | drain course =>
      obtain ⟨h_task, h_state⟩ := Feed.launch_of_awaitDrain h_attempt
      refine .inr ⟨h_action, ?_⟩
      rw [state_of_later h_alive h_action, AsyncCall.attempt, h_state,
        FeedTask.awaitDrain.inj h_task]
      exact WaitSlot.isAttached_join _
  | parked task' h_action live course =>
    generalize s.after.state = feed' at course
    cases course with
    | read course => cases course
    | drain same =>
      -- parked again with the same place
      cases same _ rfl
      exact .inl live

end Step

/-! ### The slot and the tasks -/

/-- What stays true of the slot of those who wait for the log to drain, and of the waits. -/
structure Draining (feed : Feed) (tasks : List (Handle × FeedTask)) : Prop where
  /-- A notification is pending only while there is something in the log. -/
  nonempty : feed.drained.isPending = true → feed.log.isEmpty = false
  /-- Who has no answer waits for the pending notification. -/
  attached : ∀ handle w, (handle, FeedTask.awaitDrain w) ∈ tasks →
    feed.drained.answer? w = none → feed.drained.IsAttached w
  /-- Nobody waits for a closed feed. -/
  closed : feed.isClosed = true → feed.drained.isPending = false

namespace Draining

/-- Nobody waits once the log is empty. -/
theorem exists_answer {feed : Feed} {tasks : List (Handle × FeedTask)} (h : Draining feed tasks)
    (h_empty : feed.log.isEmpty = true) {handle : Handle} {w : Waiter}
    (h_mem : (handle, FeedTask.awaitDrain w) ∈ tasks) :
    ∃ outcome, feed.drained.answer? w = some outcome := by
  apply Option.ne_none_iff_exists'.mp
  intro h_none
  have h_log := h.nonempty (h.attached handle w h_mem h_none).1
  exact Bool.eq_false_iff.mp h_log h_empty

/-- At the start nobody waits. -/
theorem initial {feed : Feed} (h_slot : feed.drained = ∅) : Draining feed [] := by
  have h_pending : feed.drained.isPending = false := by rw [h_slot]; rfl
  refine ⟨?_, nofun, fun _ => h_pending⟩
  rw [h_pending]
  nofun

/-- There is something in the log while a notification is pending, whatever the step does. -/
theorem nonempty_after {s : Step} (h : Draining s.before.state s.before.executor.tasks)
    (course : s.DrainedCourse) (h_pending : s.after.state.drained.isPending = true) :
    s.after.state.log.isEmpty = false := by
  cases course with
  | same slot log isClosed noEnd =>
    rw [slot] at h_pending
    exact Bool.eq_false_iff.mpr fun h_empty =>
      Bool.eq_false_iff.mp (h.nonempty h_pending) (log h_empty)
  | joins action isOpen busy h_after =>
    rw [h_after]
    exact busy.elim h.nonempty id
  | acknowledged upTo turn h_after =>
    -- a log that the acknowledgement has emptied is drained, and then everybody is told
    rw [h_after, Feed.drained_truncate, Feed.isDrainedBy_eq] at h_pending
    rw [h_after]
    apply Bool.eq_false_iff.mpr
    intro h_empty
    rw [h_empty, Bool.true_or, if_pos rfl, WaitSlot.isPending_resolve] at h_pending
    cases h_pending
  | closed action h_after =>
    rw [h_after, Feed.effect_close] at h_pending
    split at h_pending
    · next h_closed => exact absurd h_pending (Bool.eq_false_iff.mp (h.closed h_closed))
    · rw [WaitSlot.isPending_resolve] at h_pending
      cases h_pending

/-- Nothing is pending in a closed feed, whatever the step does. -/
theorem closed_after {s : Step} (h : Draining s.before.state s.before.executor.tasks)
    (course : s.DrainedCourse) (h_closed : s.after.state.isClosed = true) :
    s.after.state.drained.isPending = false := by
  cases course with
  | same slot log isClosed noEnd =>
    rw [slot]
    exact h.closed (isClosed.symm.trans h_closed)
  | joins action isOpen busy h_after =>
    rw [h_after] at h_closed
    exact absurd h_closed (Bool.eq_false_iff.mp isOpen)
  | acknowledged upTo turn h_after =>
    obtain ⟨other, h_action, -⟩ := turn
    have isClosed : s.after.state.isClosed = s.before.state.isClosed :=
      FeedAction.keeps_isClosed (by rw [h_action]; nofun) s.before
    rw [h_after, Feed.drained_truncate]
    split
    · exact WaitSlot.isPending_resolve ..
    · exact h.closed (isClosed.symm.trans h_closed)
  | closed action h_after =>
    rw [h_after, Feed.effect_close]
    split
    · next h_closed => exact h.closed h_closed
    · exact WaitSlot.isPending_resolve ..

/-- A step keeps it. -/
theorem step {s : Step} (h : Draining s.before.state s.before.executor.tasks)
    (h_sound : s.before.executor.Sound) (h_alive : s.before.executor.alive = true)
    (h_live : s.action ≠ .executor .shutdown) : Draining s.after.state s.after.executor.tasks := by
  have course := s.drained_course h_sound h_alive h_live
  refine ⟨h.nonempty_after course, ?_, h.closed_after course⟩
  intro handle w h_mem h_none
  -- who waited before keeps the place, or has an answer; who is new has just joined
  rcases Step.waiter_origin h_sound h_alive h_mem with h_old | ⟨-, h_attached⟩
  · exact course.moves.isAttached (h.attached handle w h_old) h_none
  · exact h_attached

theorem of_run {feed : Feed} {steps : List Step} {m : FeedMachine} (h_slot : feed.drained = ∅)
    (run : Run feed steps m) (h_live : ∀ s ∈ steps, s.action ≠ .executor .shutdown) :
    Draining m.state m.executor.tasks := by
  induction run with
  | start => exact .initial h_slot
  | @step steps m run action ih =>
    have h_alive := fun s h_mem => h_live s (List.mem_append_left _ h_mem)
    exact Draining.step (s := ⟨m, action⟩) (ih h_alive) run.sound (run.alive h_alive)
      (h_live _ List.mem_concat_self)

end Draining

/-! ### One wait -/

/-- How it stands with the wait behind a handle, by the way in which it has ended, if it has. -/
inductive DrainStands (m : FeedMachine) (handle : Handle) : Option WaitOutcome → Prop
  -- The wait goes on.
  | waits (w : Waiter) (live : (handle, FeedTask.awaitDrain w) ∈ m.executor.tasks)
      (attached : m.state.drained.IsAttached w) : DrainStands m handle none
  -- The wait has ended, and its task has the answer, if it is still there.
  | told (outcome : WaitOutcome)
      (answered : ∀ task, (handle, task) ∈ m.executor.tasks →
        ∃ w, task = .awaitDrain w ∧ m.state.drained.answer? w = some outcome) :
      DrainStands m handle (some outcome)

namespace DrainStands

/-- A task with an answer has ended its wait, whatever it does next. -/
theorem of_answer {m : FeedMachine} (h_sound : m.executor.Sound) {handle : Handle} {w : Waiter}
    {outcome : WaitOutcome} (live : (handle, FeedTask.awaitDrain w) ∈ m.executor.tasks)
    (h_answer : m.state.drained.answer? w = some outcome) :
    DrainStands m handle (some outcome) :=
  .told outcome fun _ h_mem => ⟨w, h_sound.eq_of_mem h_mem live, h_answer⟩

section Step

variable {s : Step} {handle : Handle} (draining : Draining s.before.state s.before.executor.tasks)
  (h_sound : s.before.executor.Sound) (h_alive : s.before.executor.alive = true)
  (h_live : s.action ≠ .executor .shutdown)

include h_sound h_live

/-- Whoever waits for the pending notification stays. -/
theorem live_after {w : Waiter} (live : (handle, FeedTask.awaitDrain w) ∈ s.before.executor.tasks)
    (attached : s.before.state.drained.IsAttached w) :
    (handle, FeedTask.awaitDrain w) ∈ s.after.executor.tasks := by
  have h_turn : (((FeedTask.awaitDrain w).turn s.before.executor.clock).effect s.before.state).1 =
      .parked (.awaitDrain w) := by
    rw [FeedTask.turn, Feed.effect_awaitDrainTurn, attached.answer?_eq_none]
  -- without an answer its turn parks it again
  cases Step.task_fate h_sound live with
  | kept live => exact live
  | parked task' h_action _ course => exact (Step.parks_of_turn h_sound h_action live h_turn).1
  | finished result h_action course => exact (Step.parks_of_turn h_sound h_action live h_turn).1
  | ended h_action => exact absurd h_action h_live

include h_alive draining

/-- How it stands with a wait that goes on is decided by the next step. -/
theorem step_waits {w : Waiter} (live : (handle, FeedTask.awaitDrain w) ∈ s.before.executor.tasks)
    (attached : s.before.state.drained.IsAttached w) :
    DrainStands s.after handle s.endsWaits? := by
  have live' := live_after h_sound h_live live attached
  have h_sound' : s.after.executor.Sound := Step.sound h_sound
  cases s.drained_course h_sound h_alive h_live with
  | same slot log isClosed noEnd =>
    rw [noEnd]
    exact .waits w live' (by rw [slot]; exact attached)
  | joins action isOpen busy h_after =>
    have noEnd : s.endsWaits? = none := by rw [Step.endsWaits?, action]
    rw [noEnd]
    exact .waits w live' (by rw [h_after]; exact attached.join)
  | acknowledged upTo turn h_after =>
    have slot := Feed.drained_truncate upTo s.before.state
    rw [← h_after] at slot
    rw [Step.endsWaits?_truncate turn]
    split
    · next h_drained =>
      rw [if_pos h_drained] at slot
      exact .of_answer h_sound' live' (by rw [slot]; exact attached.answer?_resolve _)
    · next h_left =>
      rw [if_neg h_left] at slot
      exact .waits w live' (by rw [slot]; exact attached)
  | closed action h_after =>
    -- a closed feed would have nobody waiting
    have isOpen : ¬ s.before.state.isClosed = true := by
      intro h_closed
      exact Bool.eq_false_iff.mp (draining.closed h_closed) attached.1
    have ends : s.endsWaits? = some .cancelled := by rw [Step.endsWaits?, action]
    rw [Feed.effect_close, if_neg isOpen] at h_after
    rw [ends]
    exact .of_answer h_sound' live' (by rw [h_after]; exact attached.answer?_resolve _)

/-- The first step that ends the waits decides how it stands, and later ones change nothing. -/
theorem step {ended : Option WaitOutcome} (h : DrainStands s.before handle ended)
    (h_lt : handle < s.before.executor.handles.length) :
    DrainStands s.after handle (ended.or s.endsWaits?) := by
  -- the wait goes on, or it has ended and keeps its answer
  cases h with
  | waits w live attached =>
    rw [Option.none_or]
    exact step_waits draining h_sound h_alive h_live live attached
  | told outcome answered =>
    rw [Option.some_or]
    refine .told outcome ?_
    intro task h_mem
    cases Step.task_origin h_sound h_mem with
    | kept live =>
      obtain ⟨w, rfl, h_answer⟩ := answered task live
      have moves := (s.drained_course h_sound h_alive h_live).moves
      exact ⟨w, rfl, moves.answer?_eq_some h_answer⟩
    | launched call feed' h_action h_handle =>
      rw [h_handle] at h_lt
      exact absurd h_lt (Nat.lt_irrefl _)
    | parked task' h_action live course =>
      -- a task that has its answer would have ended
      obtain ⟨w, rfl, h_answer⟩ := answered task' live
      have h_turn : (((FeedTask.awaitDrain w).turn s.before.executor.clock).effect
          s.before.state).1 = .finished outcome.result := by
        rw [FeedTask.turn, Feed.effect_awaitDrainTurn, h_answer]
      exact absurd h_mem ((Step.finishes_of_turn h_sound h_action live h_turn).gone task)

end Step

end DrainStands

/-- An accepted wait is over at once if the log is empty, and otherwise it begins. -/
theorem Step.AcceptsCall.drainStands {s : Step} {handle : Handle}
    (accepts : s.AcceptsCall .awaitDrain handle)
    (draining : Draining s.before.state s.before.executor.tasks)
    (h_alive : s.before.executor.alive = true) :
    s.after.executor.handles[handle]? =
        some (if s.before.state.log.isEmpty then .resolved (.ok .done) else .waiting) ∧
      (s.before.state.log.isEmpty = false → DrainStands s.after handle none) := by
  obtain ⟨rfl, launch, feed', h_attempt, start⟩ := accepts.launch
  -- the slot is looked at in vain: with nothing in the log, nothing is pending
  have h_ready : (!s.before.state.drained.isPending && s.before.state.log.isEmpty) =
      s.before.state.log.isEmpty := by
    cases h_pending : s.before.state.drained.isPending with
    | false => rw [Bool.not_false, Bool.true_and]
    | true => rw [draining.nonempty h_pending, Bool.and_false]
  rw [AsyncCall.attempt, Feed.effect_awaitDrain, h_ready] at h_attempt
  split at h_attempt
  · cases h_attempt
  generalize s.after = m' at start ⊢
  -- with an empty log the result is there at once; otherwise the place in the slot is new
  cases h_log : s.before.state.log.isEmpty with
  | true =>
    rw [h_log, if_pos rfl, Prod.mk.injEq, Except.ok.injEq] at h_attempt
    obtain ⟨rfl, rfl⟩ := h_attempt
    cases start
    exact ⟨List.getElem?_concat_length .., nofun⟩
  | false =>
    rw [h_log, if_neg Bool.false_ne_true, Prod.mk.injEq, Except.ok.injEq] at h_attempt
    obtain ⟨rfl, rfl⟩ := h_attempt
    cases start with
    | task task alive =>
      refine ⟨List.getElem?_concat_length .., fun _ => .waits _ ?_ (WaitSlot.isAttached_join _)⟩
      exact (Executor.tasks_enqueue _ _ _).mem_iff.mpr (List.mem_cons_self ..)
    | dead task dead => exact absurd h_alive (Bool.eq_false_iff.mp dead)

/-- An open feed accepts every wait. -/
theorem Step.acceptsCall_awaitDrain {s : Step} (h_action : s.action = .later .awaitDrain)
    (isOpen : s.before.state.isClosed = false) :
    s.AcceptsCall .awaitDrain s.before.executor.handles.length := by
  have h_effect := Feed.effect_awaitDrain s.before.state
  rw [isOpen, if_neg Bool.false_ne_true] at h_effect
  split at h_effect
  · exact Step.acceptsCall_of_attempt h_action (congrArg Prod.fst h_effect)
  · exact Step.acceptsCall_of_attempt h_action (congrArg Prod.fst h_effect)

namespace Run

variable {feed : Feed} {before rest : List Step} {call : Step} {m : FeedMachine} {handle : Handle}
  (h_slot : feed.drained = ∅) (accepts : call.AcceptsCall .awaitDrain handle)
  (h_log : call.before.state.log.isEmpty = false)

include h_slot accepts h_log

/-- How it stands with a wait is decided by the first step since the call that has
ended the waits. -/
theorem drainStands (run : Run feed (before ++ call :: rest) m)
    (h_live : ∀ s ∈ before ++ call :: rest, s.action ≠ .executor .shutdown) :
    DrainStands m handle (rest.findSome? Step.endsWaits?) := by
  refine run.since h_live ?_ ?_
  · have h_live' := fun s h_s => h_live s (List.mem_append_left _ h_s)
    have run' : Run feed before call.before := run.of_append rfl
    exact (accepts.drainStands (.of_run h_slot run' h_live') (run'.alive h_live')).2 h_log
  · intro rest s run' h_live' h_last stands
    have h_call : call ∈ before ++ call :: rest :=
      List.mem_append_right _ (List.mem_cons_self ..)
    rw [List.findSome?_append, List.findSome?_singleton]
    exact stands.step (.of_run h_slot run' h_live') run'.sound (run'.alive h_live') h_last
      (run'.leaves_of_acceptsCall h_call accepts).1

/-- A wait has a result only once it has ended, and the result is the one that belongs
to its end. -/
theorem drain_result {s : Step} {result : FeedResult}
    (run : Run feed (before ++ call :: rest) s.before)
    (h_live : ∀ c ∈ before ++ call :: rest, c.action ≠ .executor .shutdown)
    (h_last : s.action ≠ .executor .shutdown) (resolves : s.Resolves handle result) :
    ∃ outcome, rest.findSome? Step.endsWaits? = some outcome ∧ result = outcome.result := by
  have h_call : call ∈ before ++ call :: rest :=
    List.mem_append_right _ (List.mem_cons_self ..)
  have stands := run.drainStands h_slot accepts h_log h_live
  -- the result was given by the last turn of the task
  obtain ⟨-, task, live, h_turn⟩ :=
    resolves.turn run.sound (run.leaves_of_acceptsCall h_call accepts).1 h_last
  generalize rest.findSome? Step.endsWaits? = ended at stands ⊢
  cases stands with
  | waits w live' attached =>
    -- a wait that goes on is parked, not finished
    obtain rfl := run.sound.eq_of_mem live live'
    rw [FeedTask.turn, Feed.effect_awaitDrainTurn, attached.answer?_eq_none] at h_turn
    cases h_turn
  | told outcome answered =>
    obtain ⟨w, rfl, h_answer⟩ := answered task live
    rw [FeedTask.turn, Feed.effect_awaitDrainTurn, h_answer] at h_turn
    exact ⟨outcome, rfl, (Turn.finished.inj h_turn).symm⟩

/-- Each step on the way that gives the wait a result gives it the one that belongs to its end. -/
theorem drain_result_of_mem {s : Step} {result : FeedResult}
    (run : Run feed (before ++ call :: rest) m)
    (h_live : ∀ c ∈ before ++ call :: rest, c.action ≠ .executor .shutdown) (h_s : s ∈ rest)
    (resolves : s.Resolves handle result) :
    ∃ outcome, rest.findSome? Step.endsWaits? = some outcome ∧ result = outcome.result := by
  -- the waits had ended before the step, and the first end stays the first
  obtain ⟨earlier, later, rfl⟩ := List.append_of_mem h_s
  rw [← List.cons_append, ← List.append_assoc] at run h_live
  obtain ⟨outcome, h_ended, h_result⟩ := (run.of_append rfl).drain_result h_slot accepts h_log
    (fun c h_c => h_live c (List.mem_append_left _ h_c))
    (h_live s (List.mem_append_right _ (List.mem_cons_self ..))) resolves
  refine ⟨outcome, ?_, h_result⟩
  rw [List.findSome?_append, h_ended, Option.some_or]

end Run

/-- A wait for the log to drain goes on, after some steps since the call: it is attached to the
pending notification, and none of the steps has given it a result. -/
structure DrainGoesOn (rest : List Step) (m : FeedMachine) (handle : Handle) : Prop where
  attached : ∃ w, (handle, FeedTask.awaitDrain w) ∈ m.executor.tasks ∧ m.state.drained.IsAttached w
  unresolved : ∀ s ∈ rest, ∀ result, ¬ s.Resolves handle result

/-- A wait for the log to drain has ended, after some steps since the call. It has its
result or gets it in the next turn of its task, which is due, and none of the steps has
given it another one. -/
structure DrainIsOver (outcome : WaitOutcome) (rest : List Step) (m : FeedMachine)
    (handle : Handle) : Prop where
  due : ∀ task, (handle, task) ∈ m.executor.tasks →
    task.isReady m.state m.executor.clock = true ∧
      Step.Finishes ⟨m, .executor (.turn handle)⟩ handle outcome.result
  resolved : ∀ s ∈ rest, ∀ result, s.Resolves handle result → result = outcome.result
  idle : m.IsIdle → ¬ m.IsUnresolved handle

section Outcome

variable {feed : Feed} {before rest : List Step} {call : Step} {m : FeedMachine} {handle : Handle}
  (h_slot : feed.drained = ∅) (accepts : call.AcceptsCall .awaitDrain handle)
  (h_log : call.before.state.log.isEmpty = false) (run : Run feed (before ++ call :: rest) m)
  (h_live : ∀ c ∈ before ++ call :: rest, c.action ≠ .executor .shutdown)

include h_slot accepts h_log run h_live

/-- Unless a step has ended the waits, it goes on. -/
theorem Run.drainGoesOn (h_ended : rest.findSome? Step.endsWaits? = none) :
    DrainGoesOn rest m handle := by
  have stands := run.drainStands h_slot accepts h_log h_live
  rw [h_ended] at stands
  cases stands with
  | waits w live attached =>
    refine ⟨⟨w, live, attached⟩, ?_⟩
    intro s h_s result resolves
    obtain ⟨outcome, h_some, -⟩ :=
      run.drain_result_of_mem h_slot accepts h_log h_live h_s resolves
    rw [h_ended] at h_some
    cases h_some

/-- Once a step has ended the waits, it is over in the same way. -/
theorem Run.drainIsOver {outcome : WaitOutcome}
    (h_ended : rest.findSome? Step.endsWaits? = some outcome) :
    DrainIsOver outcome rest m handle := by
  have stands := run.drainStands h_slot accepts h_log h_live
  rw [h_ended] at stands
  cases stands with
  | told _ answered =>
    -- a task that is still there has the answer, so its turn is due and gives it
    have due : ∀ task, (handle, task) ∈ m.executor.tasks →
        task.isReady m.state m.executor.clock = true ∧
          Step.Finishes ⟨m, .executor (.turn handle)⟩ handle outcome.result := by
      intro task h_mem
      obtain ⟨w, rfl, h_answer⟩ := answered task h_mem
      constructor
      · rw [FeedTask.isReady, h_answer, Option.isSome_some]
      · refine Step.finishes_of_turn run.sound rfl h_mem ?_
        rw [FeedTask.turn, Feed.effect_awaitDrainTurn, h_answer]
    refine ⟨due, ?_, ?_⟩
    · intro s h_s result resolves
      obtain ⟨outcome', h_some, rfl⟩ :=
        run.drain_result_of_mem h_slot accepts h_log h_live h_s resolves
      rw [Option.some.inj (h_ended.symm.trans h_some)]
    · intro h_idle
      exact h_idle.not_isUnresolved run.sound fun task h_mem => (due task h_mem).1

end Outcome

/-- In every run without a shutdown, on every facade: a notification is pending only while there is
something in the log, and nobody waits for it once the log is empty. Waiting for an open feed to
drain is over at once exactly if the log is empty. Otherwise the wait goes on until the first step
that ends the waits, has the result that belongs to it, and nothing else ends it. While
acknowledgements are effective, the steps that complete the waits are those turns of
acknowledgements that leave the log empty. -/
theorem Run.drain_outcome {facade : Metadata.Facade} {container : ContainerId} {config : Config}
    {feed : Feed} {steps : List Step} {m : FeedMachine}
    (h_make : Feed.make (.fresh facade container) config = .ok feed) (run : Run feed steps m)
    (h_live : ∀ s ∈ steps, s.action ≠ .executor .shutdown) :
    (m.state.drained.isPending = true → m.state.log.isEmpty = false) ∧
    (m.state.log.isEmpty = true → ∀ handle w, (handle, FeedTask.awaitDrain w) ∈ m.executor.tasks →
      ∃ outcome, m.state.drained.answer? w = some outcome) ∧
    (∀ call ∈ steps, call.action = .later .awaitDrain → call.before.state.isClosed = false →
      ∃ handle, call.AcceptsCall .awaitDrain handle ∧ call.after.executor.handles[handle]? =
        some (if call.before.state.log.isEmpty then .resolved (.ok .done) else .waiting)) ∧
    (∀ before call rest handle, steps = before ++ call :: rest →
      call.AcceptsCall .awaitDrain handle → call.before.state.log.isEmpty = false →
        (rest.findSome? Step.endsWaits? = none → DrainGoesOn rest m handle) ∧
        (∀ outcome, rest.findSome? Step.endsWaits? = some outcome →
          DrainIsOver outcome rest m handle)) ∧
    (∀ s ∈ steps, s.before.state.ackEffective = true →
      (s.endsWaits? = some .completed ↔
        (∃ upTo, s.IsTurnOf (.truncate upTo)) ∧ s.after.state.log.isEmpty = true)) := by
  have h_slot := (Feed.start_of_make h_make).2.2.2
  have draining := Draining.of_run h_slot run h_live
  -- what is asked of a step is asked in view of the run before it
  have before_mem : ∀ s ∈ steps, ∃ before, Run feed before s.before ∧
      ∀ c ∈ before, c.action ≠ .executor .shutdown := by
    intro s h_s
    obtain ⟨before, after, h_split⟩ := List.append_of_mem h_s
    refine ⟨before, run.of_append h_split, ?_⟩
    intro c h_c
    exact h_live c (h_split ▸ List.mem_append_left _ h_c)
  refine ⟨draining.nonempty, fun h_empty handle w => draining.exists_answer h_empty, ?_, ?_, ?_⟩
  · intro call h_call h_action isOpen
    obtain ⟨before, run', h_live'⟩ := before_mem call h_call
    have accepts := Step.acceptsCall_awaitDrain h_action isOpen
    exact ⟨_, accepts,
      (accepts.drainStands (.of_run h_slot run' h_live') (run'.alive h_live')).1⟩
  · rintro before call rest handle rfl accepts h_log
    exact ⟨run.drainGoesOn h_slot accepts h_log h_live,
      fun outcome => run.drainIsOver h_slot accepts h_log h_live⟩
  · intro s h_s h_effective
    obtain ⟨before, run', -⟩ := before_mem s h_s
    exact Step.endsWaits?_eq_completed_iff run'.sound h_effective

/-- Three operations, a wait, and two acknowledgements, of which the second one empties the log. -/
def drainActions : List FeedAction :=
  [.now (.add .checkpoint), .now (.add (.ofKind .probe)), .now (.add .checkpoint),
    .later .awaitDrain, .executor (.turn 0), .later (.acknowledge 1), .executor (.turn 1),
    .later (.acknowledge 3), .executor (.turn 2)]

/-- The wait goes on after the first acknowledgement, and is over after the second one. -/
theorem drain_outcome_of_drainActions : ∃ feed before call rest last,
    Feed.make (.fresh .recorded 1) .standard = .ok feed ∧
    Step.trace ⟨feed, .fresh⟩ drainActions = before ++ call :: (rest ++ last) ∧
    (∀ s ∈ before ++ call :: (rest ++ last), s.action ≠ .executor .shutdown) ∧
    call.AcceptsCall .awaitDrain 0 ∧
    DrainGoesOn rest (Step.final ⟨feed, .fresh⟩ (drainActions.take 8)) 0 ∧
    DrainIsOver .completed (rest ++ last) (Step.final ⟨feed, .fresh⟩ drainActions) 0 := by
  have h_live : ∀ m, ∀ s ∈ Step.trace m drainActions, s.action ≠ .executor .shutdown :=
    fun m s h_s => Step.action_ne_of_mem_trace h_s (by simp [drainActions])
  refine ⟨_, [_, _, _], _, [_, _, _, _], [_], rfl, rfl, h_live _, ⟨rfl, rfl⟩, ?_, ?_⟩
  · have h_make := show Feed.make (.fresh .recorded 1) .standard = _ from rfl
    have outcome := Run.drain_outcome h_make (Run.perform .start (drainActions.take 8))
      fun s h_s => Step.action_ne_of_mem_trace h_s (by simp [drainActions])
    exact (outcome.2.2.2.1 [_, _, _] _ [_, _, _, _] 0 rfl ⟨rfl, rfl⟩ rfl).1 rfl
  · have h_make := show Feed.make (.fresh .recorded 1) .standard = _ from rfl
    have outcome := Run.drain_outcome h_make (Run.perform .start drainActions) (h_live _)
    exact (outcome.2.2.2.1 [_, _, _] _ [_, _, _, _, _] 0 rfl ⟨rfl, rfl⟩ rfl).2 .completed rfl

end OperationFeed
