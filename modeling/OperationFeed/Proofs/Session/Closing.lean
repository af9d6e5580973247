import OperationFeed.Proofs.Run.Closing
import OperationFeed.Session.Basic

/-!
# Closing for good

Closing a feed is final. From then on every call of a session that needs an open feed is refused
before it has any effect at all, on the feed, its executor or the session around them
(`Session.Refuses`), and closing again does nothing. What had been accepted before comes to its end
with the next turn of its task (`Feed.ClosedTurn`). `Run.closed_for_good` says all this of every run
without a shutdown, on every facade.
-/

namespace OperationFeed

/-- The call needs an open feed. -/
def Call.needsOpen : Call → Bool
  | .add _ | .recordAppend .. | .getAppendData .. | .completeMerge .. | .async _ => true
  | _ => false

/-- A closed feed refuses a call whose result would come later. -/
theorem AsyncCall.run_perform_of_closed {m : FeedMachine} (h_closed : m.state.isClosed = true)
    (call : AsyncCall) : call.perform.run m = ⟨.error .closed, m, []⟩ := by
  have h_refused := run_attempt_of_closed h_closed m.executor.clock call
  simp only [perform, Act.run_bind, Act.run_get, Machine.onState, Act.run_onPart,
    Attempt.run_tryOut, h_refused]
  rfl

namespace Session

variable {session : Session} {α : Type}

/-- The session refuses a call as its feed is closed, and nothing is different afterwards. -/
def Refuses (session : Session) (call : Call) : Prop :=
  ∀ nested, (performWith nested call).run session = (.failure .closed, session)

/-- An act on the feed that does and tells nothing leaves the session as it is. -/
theorem run_liftM {a : Act Feed α} {x : α}
    (h : a.run session.machine.state = ⟨x, session.machine.state, []⟩) :
    (liftM a : StateM Session α).run session = (x, session) := by
  change (onMachine (Machine.onState a)).run session = _
  rw [run_onMachine, Machine.onState, Act.run_onPart, h]
  rfl

section Closed

variable (h_closed : session.machine.state.isClosed = true)

include h_closed

/-- A look-up does not get as far as its hook. -/
theorem run_getAppendData_of_closed (hook : StateM Session Unit) (segment : SegmentId)
    (start : UInt64) (length : Nat) :
    (Feed.getAppendData hook segment start length).run session = (.error .closed, session) := by
  have h_refused : (attempt Feed.admitLookup).run session = (.error .closed, session) :=
    run_liftM (Feed.run_requireOpen_bind h_closed _)
  change (attempt Feed.admitLookup >>= _).run session = _
  -- what follows the refusal is not run
  rw [StateT.run_bind, h_refused]
  rfl

/-- A merge does not get as far as its hook. -/
theorem run_completeMerge_of_closed (hook : StateM Session Unit) :
    (Feed.completeMerge hook).run session = (.error .closed, session) := by
  have h_refused : (attempt Feed.requireOpen).run session = (.error .closed, session) :=
    run_liftM (Feed.run_requireOpen_of_closed h_closed)
  change (attempt Feed.requireOpen >>= _).run session = _
  rw [StateT.run_bind, h_refused]
  rfl

/-- Every call that needs an open feed begins with the check for it. -/
theorem refuses_of_closed {call : Call} (h_call : call.needsOpen = true) :
    session.Refuses call := by
  intro nested
  cases call with
  | add op =>
    have h_refused : (attempt (Feed.add op)).run session = (.error .closed, session) :=
      run_liftM (Feed.run_requireOpen_bind h_closed _)
    rw [performWith, StateT.run_bind, h_refused]
    rfl
  | recordAppend segment offset data =>
    have h_refused : (attempt (Feed.recordAppend segment offset data)).run session =
        (.error .closed, session) := run_liftM (Feed.run_requireOpen_bind h_closed _)
    rw [performWith, StateT.run_bind, h_refused]
    rfl
  | getAppendData segment start length =>
    rw [performWith, StateT.run_bind, run_getAppendData_of_closed h_closed]
    rfl
  | completeMerge target source =>
    rw [performWith, StateT.run_bind, run_completeMerge_of_closed h_closed]
    rfl
  | async call =>
    have h_refused : (onMachine call.perform).run session = (.error .closed, session) := by
      rw [run_onMachine, AsyncCall.run_perform_of_closed h_closed]
      rfl
    rw [performWith, StateT.run_bind, h_refused]
    rfl
  | _ => cases h_call

/-- Closing again does nothing. -/
theorem run_close_again (nested : Call → StateM Session Answer) :
    (performWith nested .close).run session = (.nothing, session) := by
  have h_same : (liftM Feed.close : StateM Session Unit).run session = ((), session) :=
    run_liftM (Feed.run_close_of_closed h_closed)
  change ((liftM Feed.close : StateM Session Unit) >>= fun _ =>
    (pure Answer.nothing : StateM Session Answer)).run session = _
  rw [StateT.run_bind, h_same]
  rfl

end Closed

end Session

/-! ### Runs -/

/-- A task that is left once the feed has been closed: it was there before and is as it was, it is
due a turn, and the turn ends it. -/
structure EndsWithNextTurn (close : Step) (m : FeedMachine) (handle : Handle) (task : FeedTask) :
    Prop where
  old : (handle, task) ∈ close.before.executor.tasks
  due : task.isReady m.state m.executor.clock = true
  turn : ∃ result,
    Feed.ClosedTurn close.before.state m.executor.clock m.state task result
      (Step.after ⟨m, .executor (.turn handle)⟩).state ∧
    Step.Finishes ⟨m, .executor (.turn handle)⟩ handle result

/-- Since the feed was closed, in any step of any run without a shutdown, on every facade: it is
still closed, and nothing is pending. Calls that need an open feed are refused and change nothing,
and neither does closing again. What had no result when the feed was closed has a task of its call;
each task stays as it is until its turn, in which it ends; and when nothing is due, everything has
its result. -/
theorem Run.closed_for_good {facade : Metadata.Facade} {container : ContainerId} {config : Config}
    {feed : Feed} {before rest : List Step} {close : Step} {m : FeedMachine}
    (h_make : Feed.make (.fresh facade container) config = .ok feed)
    (run : Run feed (before ++ close :: rest) m)
    (h_live : ∀ s ∈ before ++ close :: rest, s.action ≠ .executor .shutdown)
    (h_close : close.action = .now .close) :
    (m.state.isClosed = true ∧ m.state.arrivals.isPending = false ∧
      m.state.drained.isPending = false) ∧
    (∀ session : Session, session.machine = m →
      (∀ call, call.needsOpen = true → session.Refuses call) ∧
        ∀ nested, (Session.performWith nested .close).run session = (.nothing, session)) ∧
    (∀ s ∈ before, ∀ call handle, s.AcceptsCall call handle → close.before.IsUnresolved handle →
      ∃ task, call.Leaves task ∧ (handle, task) ∈ close.before.executor.tasks) ∧
    (∀ handle task, (handle, task) ∈ close.before.executor.tasks →
      (handle, task) ∈ m.executor.tasks ∨ ∃ s ∈ rest, s.action = .executor (.turn handle) ∧
        (handle, task) ∈ s.before.executor.tasks) ∧
    (∀ handle task, (handle, task) ∈ m.executor.tasks → EndsWithNextTurn close m handle task) ∧
    (m.IsIdle → ∀ handle, ¬ m.IsUnresolved handle) := by
  have h_new := Feed.isNew_of_make h_make
  have h_slot := (Feed.start_of_make h_make).2.2.2
  have run' : Run feed before close.before := run.of_append rfl
  have h_live' := fun s h_s => h_live s (List.mem_append_left _ h_s)
  -- the three invariants are about what the close has left, waits for an empty log, and readers
  have since := run.closedSince h_new h_slot h_live h_close
  have draining := Draining.of_run h_slot run h_live
  have waiting := Waiting.of_told h_new run h_live
  have ends : ∀ handle task, (handle, task) ∈ m.executor.tasks →
      EndsWithNextTurn close m handle task := by
    intro handle task h_mem
    obtain ⟨h_due, result, feed', h_turn, course⟩ := since.exists_turn h_close
      (.of_run h_slot run' h_live') waiting h_mem m.executor.clock
    -- the turn is known from what a closed feed makes of the task
    refine ⟨since.tasks _ h_mem, h_due, result, ?_, ?_⟩
    · rw [Step.state_of_turn (s := ⟨m, _⟩) run.sound rfl h_mem, h_turn]
      exact course
    · exact Step.finishes_of_turn run.sound rfl h_mem (congrArg Prod.fst h_turn)
  refine ⟨⟨since.isClosed, ?_, draining.closed since.isClosed⟩, ?_, ?_, ?_, ends, ?_⟩
  · rw [WaitSlot.isPending, waiting.closed since.isClosed, Option.isSome_none]
  · rintro session rfl
    exact ⟨fun call => Session.refuses_of_closed since.isClosed,
      Session.run_close_again since.isClosed⟩
  · intro s h_s call handle accepts h_unresolved
    obtain ⟨task, h_mem⟩ := h_unresolved.exists_task run'.sound
    exact ⟨task, (run'.leaves_of_acceptsCall h_s accepts).2 task h_mem, h_mem⟩
  · intro handle task h_mem
    -- closing leaves the tasks as they are
    apply run.stays_until_turn h_live
    rw [Step.after, h_close]
    exact h_mem
  · intro h_idle handle
    exact h_idle.not_isUnresolved run.sound fun task h_mem => (ends handle task h_mem).due

/-- A read that is told of an operation, a wait, and an acknowledgement; none of them has a result
when the feed is closed. The acknowledgement takes effect afterwards. -/
def closingActions : List FeedAction :=
  [.now (.add .checkpoint), .later (.read 1 1 ⟨Duration.second⟩), .later .awaitDrain,
    .later (.acknowledge 1), .executor (.turn 0), .now (.add (.ofKind .probe)), .now .close,
    .executor (.turn 2)]

/-- The reader gives up in its next turn, although there is an operation for it. -/
theorem closed_for_good_of_closingActions : ∃ feed before close rest,
    Feed.make (.fresh .recorded 1) .standard = .ok feed ∧
    Step.trace ⟨feed, .fresh⟩ closingActions = before ++ close :: rest ∧
    (∀ s ∈ before ++ close :: rest, s.action ≠ .executor .shutdown) ∧
    close.action = .now .close ∧
    (Step.final ⟨feed, .fresh⟩ closingActions).state.log.entries.map (·.number) = [2] ∧
    EndsWithNextTurn close (Step.final ⟨feed, .fresh⟩ closingActions) 0
      (.read ⟨1, 1, some 1000, ⟨Duration.second⟩, ⟨0⟩⟩) := by
  have h_live : ∀ m, ∀ s ∈ Step.trace m closingActions, s.action ≠ .executor .shutdown :=
    fun m s h_s => Step.action_ne_of_mem_trace h_s (by simp [closingActions])
  have h_make := show Feed.make (.fresh .recorded 1) .standard = _ from rfl
  refine ⟨_, [_, _, _, _, _, _], _, [_], rfl, rfl, h_live _, rfl, rfl, ?_⟩
  have h_closed := Run.closed_for_good h_make
    (show Run _ ([_, _, _, _, _, _] ++ _ :: [_]) _ from Run.perform .start closingActions)
    (h_live _) rfl
  exact h_closed.2.2.2.2.1 0 _ (.tail _ (.head _))

end OperationFeed
