import OperationFeed.Proofs.Run.Actions
import Mathlib.Data.List.Induction

/-!
# Runs

A *run* is a list of actions, one after another, from a new feed on which nothing has happened yet;
nothing is said about their order. Every step of it is kept with the machine it starts from, so what
a step did can be seen from the step alone (`Step.answer`, `Step.after`).

`Step.Course` says what a step can do to the whole machine. An invariant of runs is proved by an
induction on `Run` in which the step is taken apart by `Step.course`, and what is true from some
step on by `Run.since`.
-/

namespace OperationFeed

/-- Something that a caller or the executor does. -/
inductive FeedAction where
  -- Make a call that is answered at once.
  | now (call : FeedCall)
  -- Make a call whose result comes later.
  | later (call : AsyncCall)
  -- Let the executor make a move.
  | executor (move : ExecutorMove)

/-- Perform an action. -/
def FeedAction.perform : FeedAction → Act FeedMachine Answer
  | .now call => Machine.onState call.act
  | .later call => return .ofResult .handle (← call.perform)
  | .executor move => do
    Machine.move move
    return .nothing

/-- A step of a run: an action, and the machine that it is performed on. -/
structure Step where
  /-- The machine before the step. -/
  before : FeedMachine
  /-- The action. -/
  action : FeedAction

/-- A call that the feed accepts starts something, from the state that the feed was left in. -/
theorem AsyncCall.effect_perform (call : AsyncCall) (m : FeedMachine) :
    call.perform.effect m =
      match (call.attempt m.executor.clock).effect m.state with
      | (.error e, feed') => (.error e, { m with state := feed' })
      | (.ok launch, feed') =>
        (.ok ((Machine.start launch).effect { m with state := feed' }).1,
          ((Machine.start launch).effect { m with state := feed' }).2) := by
  simp only [perform, Act.effect_bind, Act.effect_get, Machine.effect_onState,
    Attempt.effect_tryOut]
  rcases (call.attempt m.executor.clock).effect m.state with ⟨_ | _, feed'⟩ <;> rfl

namespace Step

/-- What the action is answered with. -/
def answer (s : Step) : Answer := (s.action.perform.effect s.before).1

/-- The machine after the step. -/
def after (s : Step) : FeedMachine := (s.action.perform.effect s.before).2

/-- A call that the feed refuses is answered with the refusal. -/
theorem answer_of_error {s : Step} {call : AsyncCall} {e : FeedError}
    (h_action : s.action = .later call)
    (h : ((call.attempt s.before.executor.clock).effect s.before.state).1 = .error e) :
    s.answer = .failure e := by
  rw [answer, h_action, FeedAction.perform, Act.effect_bind, AsyncCall.effect_perform]
  generalize (call.attempt s.before.executor.clock).effect s.before.state = out at h
  obtain ⟨result, feed'⟩ := out
  obtain rfl : result = .error e := h
  rfl

/-- What a step can do. -/
inductive Course (m : FeedMachine) : FeedAction → Answer → FeedMachine → Prop
  -- A call is answered at once.
  | called {call : FeedCall} {answer : Answer} {feed' : Feed}
      (course : Feed.CallCourse m.state call answer feed') :
      Course m (.now call) answer { m with state := feed' }
  -- A call whose result would come later is refused.
  | refused {call : AsyncCall} {e : FeedError} {feed' : Feed}
      (course : Feed.AsyncCourse m.executor.clock m.state call (.error e) feed') :
      Course m (.later call) (.failure e) { m with state := feed' }
  -- A call is accepted, and answered with the next handle.
  | launched {call : AsyncCall} {launch : FeedLaunch} {feed' : Feed} {m' : FeedMachine}
      (course : Feed.AsyncCourse m.executor.clock m.state call (.ok launch) feed')
      (start : Machine.StartCourse { m with state := feed' } launch m') :
      Course m (.later call) (.success (.handle m.executor.handles.length)) m'
  -- The executor makes a move that touches no task.
  | quiet {move : ExecutorMove} {executor : Executor FeedTask FeedResult}
      (noTask : ∀ handle, move = .turn handle → m.executor.tasks.lookup handle = none)
      (same : m.executor.SameTasks executor) :
      Course m (.executor move) .nothing { m with executor }
  -- A task is over.
  | finished {handle : Handle} {task : FeedTask} {result : FeedResult} {feed' : Feed}
      {executor : Executor FeedTask FeedResult}
      (live : m.executor.tasks.lookup handle = some task)
      (course : Feed.TurnCourse m.executor.clock m.state task (.finished result) feed')
      (same : ((m.executor.withdraw handle).resolve handle result).SameTasks executor) :
      Course m (.executor (.turn handle)) .nothing ⟨feed', executor⟩
  -- A task waits.
  | parked {handle : Handle} {task task' : FeedTask} {feed' : Feed}
      {executor : Executor FeedTask FeedResult}
      (live : m.executor.tasks.lookup handle = some task)
      (course : Feed.TurnCourse m.executor.clock m.state task (.parked task') feed')
      (same : ((m.executor.withdraw handle).park handle task').SameTasks executor) :
      Course m (.executor (.turn handle)) .nothing ⟨feed', executor⟩
  -- All tasks are over.
  | ended {m' : FeedMachine} (ended : m.Ended m') : Course m (.executor .shutdown) .nothing m'

/-- Whatever the action is, its step takes one of these courses. -/
theorem course (s : Step) : Course s.before s.action s.answer s.after := by
  obtain ⟨m, action⟩ := s
  cases action with
  | now call => exact .called (Feed.call_course call m.state)
  | later call =>
    have course := Feed.async_course m.executor.clock call m.state
    rw [answer, after, FeedAction.perform, Act.effect_bind, AsyncCall.effect_perform]
    -- what the feed says decides whether anything is started
    rcases h : (call.attempt m.executor.clock).effect m.state with ⟨e | launch, feed'⟩
    · rw [h] at course
      exact .refused course
    · rw [h] at course
      have start := Machine.start_course launch { m with state := feed' }
      simp only [Act.effect_pure, start.1]
      exact .launched course start.2
  | executor move =>
    -- the executor says which task has its turn, the feed what the turn does
    have course := Machine.move_course move m
    rw [answer, after, FeedAction.perform, Act.effect_bind]
    change Course m (.executor move) .nothing ((Machine.move move).effect m).2
    generalize ((Machine.move move).effect m).2 = m' at course ⊢
    cases course with
    | quiet noTask same => exact .quiet noTask same
    | finished live turn same =>
      refine .finished live ?_ same
      rw [← turn]
      exact Feed.turn_course _ _ _
    | parked live turn same =>
      refine .parked live ?_ same
      rw [← turn]
      exact Feed.turn_course _ _ _
    | ended ended => exact .ended ended

end Step

/-- Tasks and handles that fit together go on fitting together. -/
theorem Step.sound {s : Step} (h : s.before.executor.Sound) : s.after.executor.Sound := by
  have course := s.course
  generalize s.action = action, s.answer = answer, s.after = m' at course ⊢
  -- only what touches the tasks matters: a start, an end, another round, a shutdown
  cases course with
  | called course => exact h
  | refused course => exact h
  | launched course start =>
    refine Executor.Sound.startCourse ?_ start
    exact h
  | quiet noTask same => exact h.sameTasks same
  | finished live course same => exact (h.finish _ _).sameTasks same
  | parked live course same => exact (h.repark live _).sameTasks same
  | ended ended => exact Executor.Sound.moveCourse h (.ended ended)

/-- Only a shutdown ends the executor. -/
theorem Step.alive_eq {s : Step} (h : s.action ≠ .executor .shutdown) :
    s.after.executor.alive = s.before.executor.alive := by
  have course := s.course
  generalize s.action = action, s.answer = answer, s.after = m' at course h ⊢
  cases course with
  | called course => rfl
  | refused course => rfl
  | launched course start => cases start <;> rfl
  | quiet noTask same => exact same.alive
  | finished live course same => exact same.alive.trans (Executor.alive_resolve ..)
  | parked live course same => exact same.alive
  | ended ended => exact absurd rfl h

/-- A shutdown ends the executor. -/
theorem Step.alive_of_shutdown {s : Step} (h : s.action = .executor .shutdown) :
    s.after.executor.alive = false := by
  rw [after, h]
  exact (Machine.ended_shutdown s.before).alive

/-- A feed on which nothing has happened yet. -/
structure Feed.IsNew (feed : Feed) : Prop where
  current : feed.metadata.store.current = 0
  markers : feed.metadata.store.markers = ∅
  points : feed.metadata.store.points = ∅
  log : feed.log = ∅
  arrivals : feed.arrivals = ∅
  isClosed : feed.isClosed = false

/-- A new feed's log may be cut nowhere. -/
theorem Feed.IsNew.isPoint {feed : Feed} (h : feed.IsNew) (number : SequenceNumber) :
    feed.metadata.store.isPoint number = false := by
  rw [MetadataStore.isPoint, h.points]
  rfl

section Make

variable {facade : Metadata.Facade} {container : ContainerId} {config : Config} {feed : Feed}
  (h_make : Feed.make (.fresh facade container) config = .ok feed)

include h_make

theorem Feed.isNew_of_make : feed.IsNew := by
  rw [Feed.make] at h_make
  split at h_make
  · cases h_make
  · obtain rfl := Except.ok.inj h_make
    exact ⟨rfl, rfl, rfl, rfl, rfl, rfl⟩

/-- A feed starts out with a valid configuration, no checkpoint of its own, and nobody waiting for
it to drain. -/
theorem Feed.start_of_make : config.validate = .ok () ∧ feed.config = config ∧
    feed.lastAutoCheckpoint = 0 ∧ feed.drained = ∅ := by
  rw [Feed.make] at h_make
  split at h_make
  · cases h_make
  · next h_valid =>
    obtain rfl := Except.ok.inj h_make
    exact ⟨h_valid, rfl, rfl, rfl⟩

/-- Two of the four facades keep no record. -/
theorem Feed.record_of_make (h_facade : facade = .plain ∨ facade = .traced) :
    feed.metadata.record = none := by
  rw [Feed.make] at h_make
  split at h_make
  · cases h_make
  · obtain rfl := Except.ok.inj h_make
    rcases h_facade with rfl | rfl <;> rfl

end Make

/-- The steps from a new feed to a machine. -/
inductive Run (feed : Feed) : List Step → FeedMachine → Prop
  | start : Run feed [] ⟨feed, .fresh⟩
  | step {steps : List Step} {m : FeedMachine} (run : Run feed steps m) (action : FeedAction) :
      Run feed (steps ++ [⟨m, action⟩]) (Step.after ⟨m, action⟩)

/-- The steps in which some actions are performed, one after another. -/
def Step.trace (m : FeedMachine) : List FeedAction → List Step
  | [] => []
  | action :: rest => ⟨m, action⟩ :: Step.trace (Step.after ⟨m, action⟩) rest

/-- The machine on which some actions have been performed. -/
def Step.final (m : FeedMachine) : List FeedAction → FeedMachine
  | [] => m
  | action :: rest => Step.final (Step.after ⟨m, action⟩) rest

theorem Step.final_append (m : FeedMachine) (actions rest : List FeedAction) :
    Step.final m (actions ++ rest) = Step.final (Step.final m actions) rest := by
  induction actions generalizing m with
  | nil => rfl
  | cons action actions ih => exact ih _

/-- Whatever is performed, tasks and handles go on fitting together. -/
theorem Step.sound_final {m : FeedMachine} (h : m.executor.Sound) (actions : List FeedAction) :
    (Step.final m actions).executor.Sound := by
  induction actions generalizing m with
  | nil => exact h
  | cons action rest ih => exact ih (Step.sound (s := ⟨m, action⟩) h)

/-- Each step of a trace performs one of the actions. -/
theorem Step.action_mem_of_mem_trace {m : FeedMachine} {actions : List FeedAction} {s : Step}
    (h : s ∈ Step.trace m actions) : s.action ∈ actions := by
  induction actions generalizing m with
  | nil => cases h
  | cons action rest ih =>
    rcases List.mem_cons.mp h with rfl | h
    · exact List.mem_cons_self ..
    · exact List.mem_cons_of_mem _ (ih h)

/-- The steps have no action that is not performed. -/
theorem Step.action_ne_of_mem_trace {m : FeedMachine} {actions : List FeedAction} {s : Step}
    {action : FeedAction} (h : s ∈ Step.trace m actions) (h_not : action ∉ actions) :
    s.action ≠ action := by
  rintro rfl
  exact h_not (action_mem_of_mem_trace h)

namespace Run

variable {feed : Feed} {steps : List Step} {m : FeedMachine}

/-- A run may go on with any actions. -/
theorem perform (run : Run feed steps m) (actions : List FeedAction) :
    Run feed (steps ++ Step.trace m actions) (Step.final m actions) := by
  induction actions generalizing steps m with
  | nil =>
    rw [Step.trace, List.append_nil]
    exact run
  | cons action rest ih =>
    rw [Step.trace, List.append_cons]
    exact ih (run.step action)

/-- The steps before a step of a run are a run to the machine that it starts from. -/
theorem of_append {before after : List Step} {s : Step} (run : Run feed steps m)
    (h : steps = before ++ s :: after) : Run feed before s.before := by
  induction run generalizing after with
  | start => cases before <;> cases h
  | @step steps' m' run' action ih =>
    -- the step is the last one, or it lies before the last one
    rcases List.eq_nil_or_concat after with rfl | ⟨after', last, rfl⟩
    · obtain ⟨rfl, h_last⟩ := List.append_inj' h rfl
      obtain rfl := (List.cons.inj h_last).1
      exact run'
    · rw [List.concat_eq_append, ← List.cons_append, ← List.append_assoc] at h
      exact ih (List.append_inj' h rfl).1

/-- The last step of a run leads to the machine of the run. -/
theorem after_eq {s : Step} (run : Run feed (steps ++ [s]) m) : s.after = m := by
  generalize h_steps : steps ++ [s] = all at run
  cases run with
  | start => cases List.append_ne_nil_of_right_ne_nil _ (List.cons_ne_nil _ _) h_steps
  | step run action =>
    obtain rfl := (List.cons.inj (List.append_inj' h_steps rfl).2).1
    rfl

/-- What holds of every step in view of the run before it holds of all steps of a run. -/
theorem forall_mem {P : Step → Prop} (run : Run feed steps m)
    (h : ∀ before s, before ++ [s] <+: steps → Run feed before s.before → P s) :
    ∀ s ∈ steps, P s := by
  intro s h_mem
  obtain ⟨before, after, h_split⟩ := List.append_of_mem h_mem
  refine h before s ⟨after, ?_⟩ (run.of_append h_split)
  rw [h_split, List.append_assoc, List.singleton_append]

/-- The tasks and the handles of a run fit together. -/
theorem sound (run : Run feed steps m) : m.executor.Sound := by
  induction run with
  | start => exact .fresh
  | step run action ih => exact Step.sound ih

/-- The executor is alive exactly if there was no shutdown. -/
theorem alive_iff (run : Run feed steps m) :
    m.executor.alive = true ↔ ∀ s ∈ steps, s.action ≠ .executor .shutdown := by
  induction run with
  | start => exact ⟨fun _ => List.forall_mem_nil _, fun _ => rfl⟩
  | @step steps m run action ih =>
    -- a shutdown as the last step, or any other
    by_cases h_last : action = .executor .shutdown
    · rw [Step.alive_of_shutdown (s := ⟨m, action⟩) h_last]
      constructor
      · exact nofun
      · exact fun h_live => absurd h_last (h_live _ List.mem_concat_self)
    · rw [Step.alive_eq (s := ⟨m, action⟩) h_last, ih]
      constructor
      · intro h_live s h_mem
        rcases List.mem_append.mp h_mem with h_mem | h_mem
        · exact h_live s h_mem
        · rw [List.mem_singleton.mp h_mem]
          exact h_last
      · exact fun h_live s h_mem => h_live s (List.mem_append_left _ h_mem)

/-- Without a shutdown the executor is alive. -/
theorem alive (run : Run feed steps m)
    (h_live : ∀ s ∈ steps, s.action ≠ .executor .shutdown) : m.executor.alive = true :=
  run.alive_iff.mpr h_live

/-- Without a shutdown, what a step brings about and every later step keeps is true in the end. It
may be about the steps since then. -/
@[elab_as_elim]
theorem since {motive : List Step → FeedMachine → Prop} {before rest : List Step} {s : Step}
    (run : Run feed (before ++ s :: rest) m)
    (h_live : ∀ c ∈ before ++ s :: rest, c.action ≠ .executor .shutdown) (start : motive [] s.after)
    (step : ∀ rest c, Run feed (before ++ s :: rest) c.before →
      (∀ d ∈ before ++ s :: rest, d.action ≠ .executor .shutdown) →
      c.action ≠ .executor .shutdown → motive rest c.before → motive (rest ++ [c]) c.after) :
    motive rest m := by
  induction rest using List.reverseRecOn generalizing m with
  | nil =>
    rw [← run.after_eq]
    exact start
  | append_singleton rest c ih =>
    rw [← List.cons_append, ← List.append_assoc] at run h_live
    have h_live' := fun d h_d => h_live d (List.mem_append_left _ h_d)
    have run' : Run feed (before ++ s :: rest) c.before := run.of_append rfl
    rw [← run.after_eq]
    exact step rest c run' h_live' (h_live c List.mem_concat_self) (ih run' h_live')

end Run

end OperationFeed
