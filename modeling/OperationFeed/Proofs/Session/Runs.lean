import OperationFeed.Proofs.Run.Basic
import OperationFeed.Session.Basic

/-!
# What a session does is a run

A session performs actions in an order of its own: a call, then whatever it has made ready, then the
tasks that are due, one after another. Whatever it does to its feed and executor can be done by
actions (`Session.run_of_steps`), so what is proved of all runs holds of sessions.

An act is *made of actions* if what it leaves is what some actions leave. Acts that are made of
actions can be put together, with `pure`, `>>=` and recursion (`Act.MadeOfActions`); the same is
said of what a session does, for the machine in it (`Session.MadeOfActions`). The executor takes the
next task from the head of its queue, while an action names the handle of the task. The two agree if
no two tasks share a handle, so all this is for executors that are sound.
-/

namespace OperationFeed

/-! ### Acts on the machine -/

namespace Act

variable {α β : Type}

/-- What the act leaves is what some actions leave. -/
def MadeOfActions (a : Act FeedMachine α) : Prop :=
  ∀ m, m.executor.Sound → ∃ actions, (a.effect m).2 = Step.final m actions

namespace MadeOfActions

theorem pure (x : α) : (Pure.pure x : Act FeedMachine α).MadeOfActions :=
  fun _ _ => ⟨[], rfl⟩

theorem get : (MonadState.get : Act FeedMachine FeedMachine).MadeOfActions :=
  fun _ _ => ⟨[], rfl⟩

theorem bind {a : Act FeedMachine α} {f : α → Act FeedMachine β} (h : a.MadeOfActions)
    (h' : ∀ x, (f x).MadeOfActions) : (a >>= f).MadeOfActions := by
  intro m h_sound
  obtain ⟨actions, h_eq⟩ := h m h_sound
  have h_sound' := Step.sound_final h_sound actions
  obtain ⟨rest, h_rest⟩ := h' (a.effect m).1 _ h_sound'
  refine ⟨actions ++ rest, ?_⟩
  rw [effect_bind, h_eq, h_rest, Step.final_append]

/-- An act that does the same as one action. -/
theorem of_action {a : Act FeedMachine α} (action : FeedAction)
    (h : ∀ m, (a.effect m).2 = (action.perform.effect m).2) : a.MadeOfActions :=
  fun m _ => ⟨[action], h m⟩

/-- An act on the feed that does the same as a call. -/
theorem of_call {a : Act Feed α} (call : FeedCall)
    (h : ∀ feed, (a.effect feed).2 = (call.act.effect feed).2) :
    (Machine.onState a : Act FeedMachine α).MadeOfActions := by
  apply of_action (.now call)
  intro m
  rw [FeedAction.perform, Machine.effect_onState, Machine.effect_onState, h]

theorem settle : (Machine.settle : Act FeedMachine Unit).MadeOfActions :=
  of_action (.executor .settle) fun _ => rfl

/-- The task at the head of the queue has its turn. -/
theorem turn : (Machine.turn : Act FeedMachine Bool).MadeOfActions := by
  intro m h_sound
  cases h_queue : m.executor.queue with
  -- without a task in the queue, nothing happens
  | nil =>
    rw [Machine.turn, effect_bind, effect_get, h_queue]
    exact ⟨[], rfl⟩
  | cons p rest =>
    rw [Machine.effect_turn_of_queue h_sound h_queue]
    exact ⟨[.executor (.turn p.1)], rfl⟩

/-- A number of turns, each for the task that is then at the head of the queue. -/
theorem turns (fuel : Nat) : (Machine.turns fuel : Act FeedMachine Unit).MadeOfActions := by
  induction fuel with
  | zero => exact pure ()
  | succ fuel ih =>
    apply turn.bind
    intro more
    cases more with
    | true => exact ih
    | false => exact pure ()

/-- The number of turns depends on the machine, and each of them is an action. -/
theorem runAll : (Machine.runAll : Act FeedMachine Unit).MadeOfActions :=
  get.bind fun m => turns m.turnBound

/-- The clock ticks, and what is due has its turn. -/
theorem moveTo (time : Nat) : (Machine.moveTo time : Act FeedMachine Unit).MadeOfActions := by
  have h_clock : (Machine.onExecutor fun e => { e with clock := max e.clock time } :
      Act FeedMachine Unit).MadeOfActions := by
    -- how far the clock moves depends on where it is
    intro m _
    refine ⟨[.executor (.tick (time - m.executor.clock))], ?_⟩
    have h_max :
      max m.executor.clock time = m.executor.clock + (time - m.executor.clock) := by omega
    rw [Machine.effect_onExecutor, h_max]
    rfl
  exact h_clock.bind fun _ => settle.bind fun _ => runAll

/-- One deadline after another. -/
theorem moveThrough (target fuel : Nat) :
    (Machine.moveThrough target fuel : Act FeedMachine Unit).MadeOfActions := by
  induction fuel with
  | zero => exact pure ()
  | succ fuel ih =>
    apply get.bind
    intro m
    cases m.nextDeadline? target with
    | none => exact pure ()
    | some deadline => exact (moveTo deadline).bind fun _ => ih

/-- First what is due now, then the deadlines up to the end, then the end. -/
theorem advance (milliseconds : Nat) :
    (Machine.advance milliseconds : Act FeedMachine Unit).MadeOfActions :=
  runAll.bind fun _ => get.bind fun _ => (moveThrough _ _).bind fun _ => moveTo _

theorem shutdown : (Machine.shutdown : Act FeedMachine Unit).MadeOfActions :=
  of_action (.executor .shutdown) fun _ => rfl

end MadeOfActions

end Act

/-! ### Sessions -/

namespace Session

variable {α β : Type}

/-- What is left of the session's machine is what some actions leave. -/
def MadeOfActions (a : StateM Session α) : Prop :=
  ∀ s : Session, s.machine.executor.Sound →
    ∃ actions, (a.run s).2.machine = Step.final s.machine actions

namespace MadeOfActions

theorem pure (x : α) : MadeOfActions (Pure.pure x) := fun _ _ => ⟨[], rfl⟩

theorem get : MadeOfActions MonadState.get := fun _ _ => ⟨[], rfl⟩

theorem bind {a : StateM Session α} {f : α → StateM Session β} (h : MadeOfActions a)
    (h' : ∀ x, MadeOfActions (f x)) : MadeOfActions (a >>= f) := by
  intro s h_sound
  obtain ⟨actions, h_eq⟩ := h s h_sound
  have h_sound' : (a.run s).2.machine.executor.Sound := by
    rw [h_eq]
    exact Step.sound_final h_sound actions
  obtain ⟨rest, h_rest⟩ := h' (a.run s).1 (a.run s).2 h_sound'
  refine ⟨actions ++ rest, ?_⟩
  change ((f (a.run s).1).run (a.run s).2).2.machine = _
  rw [h_rest, h_eq, Step.final_append]

/-- Something is changed around the machine. -/
theorem around {f : Session → Session} (h : ∀ s, (f s).machine = s.machine) :
    MadeOfActions (modify f) := fun s _ => ⟨[], h s⟩

/-- An act on the machine is made of the same actions in a session. -/
theorem onMachine {a : Act FeedMachine α} (h : a.MadeOfActions) : MadeOfActions (onMachine a) :=
  fun s h_sound => h s.machine h_sound

/-- A call of the feed. -/
theorem ofCall {a : Act Feed α} (call : FeedCall)
    (h : ∀ feed, (a.effect feed).2 = (call.act.effect feed).2) :
    MadeOfActions (liftM a : StateM Session α) := onMachine (.of_call call h)

theorem mapM {f : α → StateM Session β} (h : ∀ x, MadeOfActions (f x)) (l : List α) :
    MadeOfActions (l.mapM f) := by
  induction l with
  | nil =>
    rw [List.mapM_nil]
    exact pure []
  | cons x l ih =>
    rw [List.mapM_cons]
    exact (h x).bind fun _ => ih.bind fun _ => pure _

end MadeOfActions

/-! ### Calls -/

section Calls

variable {nested : Call → StateM Session Answer} (h : ∀ call, MadeOfActions (nested call))

include h

/-- A hook does what the calls of its script do. -/
theorem actions_runHook (hook : Hook) (segments : List SegmentId) :
    MadeOfActions (runHook nested hook segments) := by
  refine .bind .get ?_
  intro s
  cases s.scripts.get? hook with
  | none => exact .pure _
  | some script => exact .bind (.mapM h script) fun _ => .around fun _ => rfl

/-- A call that runs a hook does something before it, and something after it. -/
theorem actions_getAppendData (segment : SegmentId) (start : UInt64) (length : Nat) :
    MadeOfActions (Feed.getAppendData (runHook nested .appendData []) segment start length) := by
  refine .bind (.ofCall .admitLookup fun _ => rfl) ?_
  intro admitted
  cases admitted with
  | error e => exact .pure _
  | ok =>
    refine .bind (actions_runHook h _ _) ?_
    intro _
    exact .ofCall (.lookUpBytes segment start length) fun _ => rfl

/-- A merge is let in, and then runs its hook. -/
theorem actions_completeMerge (segments : List SegmentId) :
    MadeOfActions (Feed.completeMerge (runHook nested .mergeComplete segments)) := by
  refine .bind (.ofCall .admitMerge fun _ => rfl) ?_
  intro admitted
  cases admitted with
  | error e => exact .pure _
  | ok => exact .bind (actions_runHook h _ _) fun _ => .pure _

/-- What is known of a segment is looked up after the hook. -/
theorem actions_segmentMetadata (segment : SegmentId) :
    MadeOfActions (Feed.segmentMetadata (runHook nested .segmentMetadata [segment]) segment) :=
  .bind (actions_runHook h _ _) fun _ => .ofCall (.segmentInfo segment) fun _ => rfl

/-- Every call is made of actions, if the calls of its hooks are. -/
theorem actions_performWith (call : Call) : MadeOfActions (performWith nested call) := by
  cases call with
  | metadata request => exact .ofCall (.metadata request) fun _ => rfl
  | add operation => exact .bind (.ofCall (.add operation) fun _ => rfl) fun _ => .pure _
  | recordAppend segment offset data =>
    exact .bind (.ofCall (.recordAppend segment offset data) fun _ => rfl) fun _ => .pure _
  | clearAppendData => exact .bind (.ofCall .clearAppendData fun _ => rfl) fun _ => .pure _
  | getAppendData segment start length =>
    exact .bind (actions_getAppendData h segment start length) fun _ => .pure _
  | completeMerge target source => exact .bind (actions_completeMerge h _) fun _ => .pure _
  | isTruncationPoint number =>
    exact .bind (.ofCall (.isTruncationPoint number) fun _ => rfl) fun _ => .pure _
  | closestTruncationPoint number =>
    exact .bind (.ofCall (.closestTruncationPoint number) fun _ => rfl) fun _ => .pure _
  | segmentMetadata segment => exact .bind (actions_segmentMetadata h segment) fun _ => .pure _
  | getAttributes segment => exact .bind .get fun _ => .pure _
  | setAckEffective effective =>
    exact .bind (.ofCall (.setAckEffective effective) fun _ => rfl) fun _ => .pure _
  | close => exact .bind (.ofCall .close fun _ => rfl) fun _ => .pure _
  | config => exact .bind .get fun _ => .pure _
  | container => exact .bind .get fun _ => .pure _
  | makeInjector name injector =>
    -- the name of the injector stands in the session, and the injector in the feed
    refine .bind (.bind ?_ fun _ => .around fun _ => rfl) fun _ => .pure _
    exact .ofCall (.makeInjector injector) fun _ => rfl
  | inject point name =>
    refine .bind (.bind .get ?_) fun _ => .pure _
    intro s
    exact .ofCall (.inject point (name.bind s.injector?)) fun _ => rfl
  | injectorCounts name => exact .bind .get fun _ => .pure _
  | recordedCalls => exact .bind .get fun _ => .pure _
  | setHook hook script => exact .bind (.around fun _ => rfl) fun _ => .pure _
  | async call =>
    refine .bind (.onMachine ?_) fun _ => .pure _
    exact .of_action (.later call) fun _ => rfl
  | drop handle =>
    refine .bind (.onMachine ?_) fun _ => .pure _
    exact .of_action (.executor (.drop handle)) fun _ => rfl

end Calls

/-- A call, however deep the scripts of its hooks nest. -/
theorem actions_performTo (depth : Nat) (call : Call) : MadeOfActions (performTo depth call) := by
  induction depth generalizing call with
  | zero => exact .pure _
  | succ depth ih =>
    refine .bind (actions_performWith ih call) ?_
    intro _
    exact .bind (.onMachine .settle) fun _ => .pure _

/-! ### Steps -/

/-- A step makes a call, or lets the executor move. -/
theorem actions_stepAlone (step : SessionStep) : MadeOfActions (stepAlone step) := by
  cases step with
  | call call => exact actions_performTo _ call
  | run => exact .bind (.onMachine .runAll) fun _ => .pure _
  | advance milliseconds => exact .bind (.onMachine (.advance milliseconds)) fun _ => .pure _
  | shutdown => exact .bind (.onMachine .shutdown) fun _ => .pure _

theorem actions_takeResults : MadeOfActions takeResults :=
  .onMachine (.of_action (.executor .take) fun _ => rfl)

/-- A step clears the reports, does what it is, and takes the results. -/
theorem actions_step (autoRun : Bool) (step : SessionStep) :
    MadeOfActions (Session.step autoRun step) := by
  refine .bind (.around fun _ => rfl) fun _ => .bind (actions_stepAlone step) ?_
  intro answer
  -- the tasks that are due may run before the report
  dsimp only
  split
  · refine .bind (.onMachine .runAll) ?_
    intro _
    exact .bind actions_takeResults fun _ => .bind .get fun _ => .pure _
  · exact .bind actions_takeResults fun _ => .bind .get fun _ => .pure _

/-- Whatever the steps of a session are, they are a run of its feed. -/
theorem run_of_steps {metadata : Metadata} {config : Config} {session : Session}
    (h_make : Session.make metadata config = .ok session) (autoRun : Bool)
    (script : List SessionStep) :
    Feed.make metadata config = .ok session.feed ∧
      ∃ steps, Run session.feed steps
        ((script.mapM (Session.step autoRun)).run session).2.machine := by
  have h_feed : Feed.make metadata config = .ok session.feed ∧
      session.machine = ⟨session.feed, .fresh⟩ := by
    -- a new session has a new feed, and an executor that has done nothing
    unfold Session.make at h_make
    cases h_feed : Feed.make metadata config with
    | error e =>
      rw [h_feed] at h_make
      cases h_make
    | ok feed =>
      rw [h_feed] at h_make
      obtain rfl := Except.ok.inj h_make
      exact ⟨rfl, rfl⟩
  obtain ⟨h_feed, h_machine⟩ := h_feed
  have run : Run session.feed [] session.machine := by
    rw [h_machine]
    exact .start
  have h_made := MadeOfActions.mapM (actions_step autoRun) script
  obtain ⟨actions, h_eq⟩ := h_made session run.sound
  refine ⟨h_feed, [] ++ Step.trace session.machine actions, ?_⟩
  rw [h_eq]
  exact run.perform actions

end Session

end OperationFeed
