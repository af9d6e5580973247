import OperationFeed.Proofs.Run.Reads
import OperationFeed.Proofs.Run.Stream

/-!
# Turns of tasks, and the calls behind them

A turn of a task does what the task says, and what becomes of the task is known from the value of
the turn: it ends, and its handle has the result unless it was dropped (`Step.Finishes`), or it goes
on as the task that it has been parked as (`Step.parks_of_turn`). A handle that an earlier call was
answered with is resolved in no other way while the executor is alive (`Step.Resolves.turn`).

What task stands behind a handle is known from the call that was answered with it:
`AsyncCall.Leaves` says what a call leaves to be done, and `Run.leaves_of_acceptsCall` that it is
still that, however many turns the task has had.
-/

namespace OperationFeed

/-! ### Turns -/

/-- The task behind a handle is over after the step, and the handle has its result if it waited for
one. -/
structure Step.Finishes (s : Step) (handle : Handle) (result : FeedResult) : Prop where
  gone : ∀ task, (handle, task) ∉ s.after.executor.tasks
  waiting : s.before.executor.handles[handle]? = some .waiting →
    s.after.executor.handles[handle]? = some (.resolved result)
  dropped : s.before.executor.handles[handle]? = some .dropped →
    s.after.executor.handles[handle]? = some .dropped

namespace Step

variable {s : Step} {handle : Handle} {task task' : FeedTask} {result : FeedResult}

/-- A move of the executor is what it does to the machine, without an answer. -/
theorem after_of_executor {move : ExecutorMove} (h_action : s.action = .executor move) :
    s.after = ((Machine.move move).effect s.before).2 := by
  rw [after, h_action]
  rfl

section Turn

variable (h_sound : s.before.executor.Sound) (h_action : s.action = .executor (.turn handle))
  (h_mem : (handle, task) ∈ s.before.executor.tasks)

include h_sound h_action h_mem

/-- A turn does to the feed what its task says. -/
theorem state_of_turn :
    s.after.state = ((task.turn s.before.executor.clock).effect s.before.state).2 := by
  have live := h_sound.lookup_eq_some.mpr h_mem
  have h_after : s.after = ((Machine.turnFor handle).effect s.before).2 :=
    after_of_executor h_action
  -- waking the tasks that are ready, after the turn, does not touch the feed
  cases h_turn : ((task.turn s.before.executor.clock).effect s.before.state).1 with
  | finished result =>
    obtain ⟨ready, h_eq⟩ := Machine.turnFor_finished live h_turn
    rw [h_after, h_eq]
    rfl
  | parked task' =>
    obtain ⟨ready, h_eq⟩ := Machine.turnFor_parked live h_turn
    rw [h_after, h_eq]
    rfl

/-- A task whose turn gives a result is over. -/
theorem finishes_of_turn
    (h_turn : ((task.turn s.before.executor.clock).effect s.before.state).1 = .finished result) :
    s.Finishes handle result := by
  have live := h_sound.lookup_eq_some.mpr h_mem
  have h_after : s.after = ((Machine.turnFor handle).effect s.before).2 :=
    after_of_executor h_action
  obtain ⟨ready, h_eq⟩ := Machine.turnFor_finished live h_turn
  have h_handles : s.after.executor.handles =
      ((s.before.executor.withdraw handle).resolve handle result).handles := by
    rw [h_after, h_eq]
    rfl
  refine ⟨?_, ?_, ?_⟩
  · intro task' h_live
    rw [h_after, h_eq, (Executor.SameTasks.wake _ ready).tasks.mem_iff, Executor.tasks_resolve,
      Executor.mem_tasks_withdraw] at h_live
    exact h_live.2 rfl
  -- the handle that waits for the result is given it
  · intro h_wait
    have h_lt : handle < s.before.executor.handles.length := (List.getElem?_eq_some_iff.mp h_wait).1
    have h_wait' : (s.before.executor.withdraw handle).handles[handle]? = some .waiting := h_wait
    rw [h_handles, Executor.resolve, h_wait']
    exact List.getElem?_set_self h_lt
  -- the result for a dropped handle is let go
  · intro h_dropped
    have h_dropped' : (s.before.executor.withdraw handle).handles[handle]? = some .dropped :=
      h_dropped
    rw [h_handles, Executor.resolve, h_dropped']
    exact h_dropped

/-- A task whose turn gives no result goes on as the task it is parked as. -/
theorem parks_of_turn
    (h_turn : ((task.turn s.before.executor.clock).effect s.before.state).1 = .parked task') :
    (handle, task') ∈ s.after.executor.tasks ∧
      s.after.executor.handles = s.before.executor.handles := by
  have live := h_sound.lookup_eq_some.mpr h_mem
  have h_after : s.after = ((Machine.turnFor handle).effect s.before).2 :=
    after_of_executor h_action
  obtain ⟨ready, h_eq⟩ := Machine.turnFor_parked live h_turn
  constructor
  · rw [h_after, h_eq, (Executor.SameTasks.wake _ ready).tasks.mem_iff,
      (Executor.tasks_park _ _ _).mem_iff]
    exact List.mem_cons_self ..
  · rw [h_after, h_eq]
    rfl

end Turn

/-- The same of a step that is known to be a turn of some task. -/
theorem IsTurnOf.state_eq (turn : s.IsTurnOf task) (h_sound : s.before.executor.Sound) :
    s.after.state = ((task.turn s.before.executor.clock).effect s.before.state).2 := by
  obtain ⟨handle, h_action, live⟩ := turn
  exact state_of_turn h_sound h_action (h_sound.lookup_eq_some.mp live)

/-- A handle that exists is resolved by the turn in which its task ends, with the result
of the turn. -/
theorem Resolves.turn (resolves : s.Resolves handle result) (h_sound : s.before.executor.Sound)
    (h_lt : handle < s.before.executor.handles.length) (h_live : s.action ≠ .executor .shutdown) :
    s.action = .executor (.turn handle) ∧ ∃ task, (handle, task) ∈ s.before.executor.tasks ∧
      ((task.turn s.before.executor.clock).effect s.before.state).1 = .finished result := by
  cases result_origin h_sound resolves with
  | ready call feed' action handle_eq =>
    exact absurd h_lt (Nat.not_lt_of_le (Nat.le_of_eq handle_eq.symm))
  | dead dead handle_eq => exact absurd h_lt (Nat.not_lt_of_le (Nat.le_of_eq handle_eq.symm))
  | finished task h_action live =>
    refine ⟨h_action, task, live, ?_⟩
    cases h_turn : ((task.turn s.before.executor.clock).effect s.before.state).1 with
    | finished result' =>
      have finishes := finishes_of_turn h_sound h_action live h_turn
      have h_after := resolves.after
      -- a dropped handle would stay dropped
      rcases h_sound.mayHaveTask _ live with h_wait | h_dropped
      · rw [finishes.waiting h_wait, Option.some.injEq, HandleState.resolved.injEq] at h_after
        rw [h_after]
      · rw [finishes.dropped h_dropped] at h_after
        cases h_after
    | parked task' =>
      have h_after := resolves.after
      rw [(parks_of_turn h_sound h_action live h_turn).2] at h_after
      exact absurd h_after (resolves.before result)
  | ended h_action => exact absurd h_action h_live

end Step

/-! ### Accepted calls -/

/-- The step is an accepted call, whose result comes through a handle. -/
structure Step.AcceptsCall (s : Step) (call : AsyncCall) (handle : Handle) : Prop where
  action : s.action = .later call
  answer : s.answer = .success (.handle handle)

/-- The task is what a call leaves to be done; a reader may have changed its place in the slot. -/
def AsyncCall.Leaves : AsyncCall → FeedTask → Prop
  | .read after max timeout, task =>
    ∃ deadline waiter, task = .read ⟨after, max, deadline, timeout, waiter⟩
  | .acknowledge upTo, task => task = .truncate upTo
  | .persist segment deltas, task => task = .persist segment deltas
  | .sealAttributes segment, task => task = .sealAttributes segment
  | .deleteAttributes segment, task => task = .deleteAttributes segment
  | .awaitDrain, task => ∃ waiter, task = .awaitDrain waiter

namespace AsyncCall.Leaves

variable {call : AsyncCall} {task task' : FeedTask} {now : Nat} {feed feed' : Feed}

/-- A call that starts its task unless a fault strikes starts that task. -/
theorem of_launchUnlessFault {point : FaultPoint}
    (h : ((do Feed.requireOpen; Feed.launchUnlessFault point task :
      Attempt Feed FeedLaunch).effect feed).1 = .ok (.task task')) : task' = task := by
  rw [Feed.effect_attributes_call] at h
  -- a closed feed refuses, and so does a fault
  split at h
  · cases h
  · cases h_strike : feed.strike point with
    | some e =>
      rw [h_strike] at h
      cases h
    | none =>
      rw [h_strike] at h
      cases h
      rfl

/-- What an accepted call starts is what it leaves to be done. -/
theorem of_attempt (h : ((call.attempt now).effect feed).1 = .ok (.task task)) :
    call.Leaves task := by
  cases call with
  | read after max timeout =>
    have course := Feed.read_course now after max timeout feed
    generalize h_result : ((Feed.read now after max timeout).effect feed).1 = result,
      ((Feed.read now after max timeout).effect feed).2 = feed' at course
    obtain rfl : result = .ok (.task task) := h_result.symm.trans h
    cases course with
    | waits same isOpen serves => exact ⟨_, _, rfl⟩
  | acknowledge upTo =>
    rcases (Feed.launch_of_acknowledge h).2 with h_task | ⟨e, h_ready⟩
    · exact Launch.task.inj h_task
    · cases h_ready
  | persist segment deltas => exact of_launchUnlessFault h
  | sealAttributes segment => exact of_launchUnlessFault h
  | deleteAttributes segment => exact of_launchUnlessFault h
  | awaitDrain =>
    have course := Feed.awaitDrain_course feed
    generalize h_result : (Feed.awaitDrain.effect feed).1 = result,
      (Feed.awaitDrain.effect feed).2 = feed' at course
    obtain rfl : result = .ok (.task task) := h_result.symm.trans h
    cases course with
    | waits => exact ⟨_, rfl⟩

/-- A task that is parked is still what the call has left. -/
theorem parked (course : Feed.TurnCourse now feed task (.parked task') feed')
    (h : call.Leaves task) : call.Leaves task' := by
  cases course with
  | read course =>
    obtain ⟨waiter, rfl⟩ := Feed.readerCourse_parked course
    cases call with
    | read after max timeout =>
      obtain ⟨deadline, waiter', h_eq⟩ := h
      rw [FeedTask.read.inj h_eq]
      exact ⟨_, _, rfl⟩
    | awaitDrain =>
      obtain ⟨waiter', h_eq⟩ := h
      cases h_eq
    | _ => cases h
  -- one who waits for the log to be empty is parked unchanged
  | drain same =>
    rw [same task' rfl]
    exact h

end AsyncCall.Leaves

/-- An accepted call has the next handle, and starts what the feed says. -/
theorem Step.AcceptsCall.launch {s : Step} {call : AsyncCall} {handle : Handle}
    (h : s.AcceptsCall call handle) : handle = s.before.executor.handles.length ∧ ∃ launch feed',
      (call.attempt s.before.executor.clock).effect s.before.state = (.ok launch, feed') ∧
      Machine.StartCourse { s.before with state := feed' } launch s.after := by
  have h_answer := h.answer
  rw [Step.answer, h.action, FeedAction.perform, Act.effect_bind,
    AsyncCall.effect_perform] at h_answer
  rw [Step.after, h.action, FeedAction.perform, Act.effect_bind, AsyncCall.effect_perform]
  generalize (call.attempt s.before.executor.clock).effect s.before.state = out at h_answer ⊢
  obtain ⟨e | launch, feed'⟩ := out
  · cases h_answer
  · have start := Machine.start_course launch { s.before with state := feed' }
    injection h_answer with h_handle
    injection h_handle with h_handle
    exact ⟨h_handle.symm.trans start.1, launch, feed', rfl, start.2⟩

/-- A call that the feed lets pass is accepted, and answered with the next handle. -/
theorem Step.acceptsCall_of_attempt {s : Step} {call : AsyncCall} {launch : FeedLaunch}
    (h_action : s.action = .later call)
    (h : ((call.attempt s.before.executor.clock).effect s.before.state).1 = .ok launch) :
    s.AcceptsCall call s.before.executor.handles.length := by
  refine ⟨h_action, ?_⟩
  rw [answer, h_action, FeedAction.perform, Act.effect_bind, AsyncCall.effect_perform]
  generalize (call.attempt s.before.executor.clock).effect s.before.state = out at h ⊢
  obtain ⟨result, feed'⟩ := out
  obtain rfl : result = .ok launch := h
  have start := (Machine.start_course launch { s.before with state := feed' }).1
  simp only [Act.effect_pure, start, Answer.ofResult]

/-- A call whose result comes later does to the feed what the call says, accepted or not. -/
theorem Step.state_of_later {s : Step} {call : AsyncCall} (h_alive : s.before.executor.alive = true)
    (h_action : s.action = .later call) :
    s.after.state = ((call.attempt s.before.executor.clock).effect s.before.state).2 := by
  rw [after, h_action, FeedAction.perform, Act.effect_bind, AsyncCall.effect_perform]
  rcases (call.attempt s.before.executor.clock).effect s.before.state with ⟨e | launch, feed'⟩
  · rfl
  · have start := (Machine.start_course launch { s.before with state := feed' }).2
    change ((Machine.start launch).effect { s.before with state := feed' }).2.state = feed'
    generalize ((Machine.start launch).effect { s.before with state := feed' }).2 = m' at start ⊢
    cases start with
    | ready result => rfl
    | task task alive => rfl
    | dead task dead => exact absurd h_alive (Bool.eq_false_iff.mp dead)

/-- A task behind the handle of a call that has just been accepted is the one that
the call starts. -/
theorem Step.AcceptsCall.attempt_eq {s : Step} {call : AsyncCall} {handle : Handle}
    {task : FeedTask} (accepts : s.AcceptsCall call handle) (h_sound : s.before.executor.Sound)
    (h_mem : (handle, task) ∈ s.after.executor.tasks) :
    ((call.attempt s.before.executor.clock).effect s.before.state).1 = .ok (.task task) := by
  obtain ⟨h_handle, launch, feed', h_attempt, start⟩ := accepts.launch
  have h_old : (handle, task) ∉ s.before.executor.tasks := by
    intro h_mem
    have h_lt := (h_sound.mayHaveTask _ h_mem).lt
    rw [h_handle] at h_lt
    exact Nat.lt_irrefl _ h_lt
  rw [h_attempt]
  generalize s.after = m' at start h_mem
  cases start with
  | ready result => exact absurd h_mem h_old
  | dead task' dead => exact absurd h_mem h_old
  | task task' alive =>
    rcases List.mem_cons.mp ((Executor.tasks_enqueue _ _ _).mem_iff.mp h_mem) with h_eq | h_mem
    · rw [(Prod.mk.inj h_eq).2]
    · exact absurd h_mem h_old

/-- The task behind the handle of an accepted call is what the call has left to be done. -/
theorem Run.leaves_of_acceptsCall {feed : Feed} {steps : List Step} {m : FeedMachine} {s : Step}
    {call : AsyncCall} {handle : Handle} (run : Run feed steps m) (h_s : s ∈ steps)
    (accepts : s.AcceptsCall call handle) :
    handle < m.executor.handles.length ∧
      ∀ task, (handle, task) ∈ m.executor.tasks → call.Leaves task := by
  induction run with
  | start => cases h_s
  | @step steps m run action ih =>
    rcases List.mem_append.mp h_s with h_s | h_s
    · obtain ⟨h_lt, h_task⟩ := ih h_s
      refine ⟨Nat.lt_of_lt_of_le h_lt (Step.handles_length_le ⟨m, action⟩), ?_⟩
      intro task h_mem
      cases Step.task_origin (s := ⟨m, action⟩) run.sound h_mem with
      | kept live => exact h_task task live
      | launched call feed' h_action h_handle h_answer course =>
        -- a new task has a handle of its own
        rw [h_handle] at h_lt
        exact absurd h_lt (Nat.lt_irrefl _)
      | parked task' h_action live course => exact .parked course (h_task task' live)
    · obtain rfl := List.mem_singleton.mp h_s
      constructor
      · obtain ⟨h_handle, launch, feed', -, start⟩ := accepts.launch
        rw [h_handle]
        generalize Step.after ⟨m, action⟩ = m' at start
        cases start <;> simp [Executor.newHandle, Executor.enqueue]
      · intro task h_mem
        exact .of_attempt (accepts.attempt_eq run.sound h_mem)

end OperationFeed
