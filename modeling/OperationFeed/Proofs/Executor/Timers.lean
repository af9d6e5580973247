import OperationFeed.Executor.Timer
import OperationFeed.Proofs.Executor.Moves
import OperationFeed.Proofs.Executor.Views

/-!
# One handle among timers

Timers have nothing to do with each other, so what an executor of timers does can be told for one
handle at a time (`HandleView`). A turn, a run and an advance of the clock are the same thing then:
the task has a first turn at one time and its last one at another (`HandleView.turned`), and two of
them in a row are one of them (`HandleView.turned_turned`).

`TimerMachine.Orderly` is what makes it so: the timers that wait have begun to sleep, and none of
them is due. From an orderly machine,

* a start makes the next handle (`started_start`);
* a turn of one task leaves all others (`hadTurn_turnFor`);
* runs and advances give every task its turns (`ran_runAll`, `ran_moveTo`, `ran_advance`);
* a shutdown ends every task with the cancelled result (`shutDown_shutdown`);

and the machine is orderly afterwards.
-/

namespace OperationFeed

/-! ### Turns of one timer -/

namespace Timer

variable {α : Type}

/-- The timer after its first turn, if that was at a given time. -/
def begin (start : Nat) (t : Timer α) : Timer α := { t with wakeAt := some (t.wakeTime start) }

@[simp] theorem wakeTime_begin (start now : Nat) (t : Timer α) :
    (t.begin start).wakeTime now = t.wakeTime start := rfl

@[simp] theorem result_begin (start : Nat) (t : Timer α) : (t.begin start).result = t.result := rfl

@[simp] theorem begin_begin (start now : Nat) (t : Timer α) :
    (t.begin start).begin now = t.begin start := rfl

/-- A turn ends a timer that has slept long enough, and puts any other one to sleep, since
its first turn. -/
theorem effect_turn (now : Nat) (t : Timer α) (s : Unit) :
    ((Work.turn now t : Act Unit (Turn (Timer α) (Except FeedError α))).effect s).1 =
      if t.wakeTime now ≤ now then .finished t.result else .parked (t.begin now) := by
  change (Act.effect (if _ then _ else _) s).1 = _
  split <;> rfl

end Timer

/-- What there is of one handle among timers. -/
abbrev TimerView (α : Type) : Type := HandleView (Timer α) (Except FeedError α)

namespace HandleView

variable {α : Type}

/-- The task had a turn at `start`, which was its first one unless it had begun, and its last one at
`now`. -/
def turned (start now : Nat) (v : TimerView α) : TimerView α :=
  match v.task with
  | none => v
  | some t =>
    if t.wakeTime start ≤ now then v.ended t.result
    else { v with task := some (t.begin start) }

section Turned

variable {v : TimerView α} {t : Timer α} {start now : Nat}

/-- Turns are nothing to a handle whose task is over. -/
theorem turned_of_none (h : v.task = none) : v.turned start now = v := by
  rw [turned, h]

/-- A timer that is due by its last turn is over. -/
theorem turned_of_le (h : v.task = some t) (h_due : t.wakeTime start ≤ now) :
    v.turned start now = v.ended t.result := by
  rw [turned, h]
  exact if_pos h_due

/-- A timer that is not due sleeps, and has begun to. -/
theorem turned_of_lt (h : v.task = some t) (h_lt : now < t.wakeTime start) :
    v.turned start now = { v with task := some (t.begin start) } := by
  rw [turned, h]
  exact if_neg (Nat.not_le_of_lt h_lt)

end Turned

/-- What counts is when the task began, and when it had its last turn. -/
theorem turned_turned {start last now : Nat} (start' : Nat) (h : last ≤ now) (v : TimerView α) :
    (v.turned start last).turned start' now = v.turned start now := by
  obtain ⟨task, state⟩ := v
  cases task with
  | none => rfl
  | some t =>
    -- a timer that was due by the earlier turn is due by the later one, and is over already;
    -- otherwise it sleeps since the same time
    by_cases h_last : t.wakeTime start ≤ last
    · have h_now : t.wakeTime start ≤ now := Nat.le_trans h_last h
      simp [turned, ended, h_last, h_now]
    · simp [turned, ended, h_last]

end HandleView

/-- What there is of the handle on something that was started, while the executor was alive or after
a shutdown. -/
def Launch.view {α : Type} (alive : Bool) : Launch (Timer α) (Except FeedError α) → TimerView α
  | .ready result => ⟨none, some (.resolved result)⟩
  | .task t =>
    if alive then ⟨some t, some .waiting⟩ else ⟨none, some (.resolved (.error .cancelled))⟩

/-! ### Machines of timers -/

namespace TimerMachine

open Machine

variable {α : Type}

/-- Tasks and handles fit together, and the timers that wait have begun to sleep and are not due. -/
structure Orderly (m : TimerMachine α) : Prop where
  sound : m.executor.Sound
  asleep : ∀ p ∈ m.executor.parked, ∃ wake, p.2.wakeAt = some wake ∧ m.executor.clock < wake

theorem orderly_fresh : Orderly (⟨(), .fresh⟩ : TimerMachine α) :=
  ⟨.fresh, fun _ h_mem => nomatch h_mem⟩

/-- A timer that has begun to sleep is ready when its sleep is over. -/
theorem isReady_eq {t : Timer α} {wake : Nat} (h_wake : t.wakeAt = some wake) (s : Unit)
    (now : Nat) : Work.isReady s now t = decide (wake ≤ now) := by
  change decide (t.wakeTime now ≤ now) = _
  rw [Timer.wakeTime, h_wake]
  rfl

variable {m m' : TimerMachine α}

/-- Time passes up to a given moment, and the timers that are due by then are queued. -/
def settleAt (time : Nat) (m : TimerMachine α) : TimerMachine α :=
  { m with executor := ({ m.executor with clock := time }).wake (Work.isReady m.state time) }

/-- When time passes, tasks move to the queue, and none comes or goes. -/
theorem sameTasks_settleAt {time : Nat} (h_le : m.executor.clock ≤ time) :
    m.executor.SameTasks (settleAt time m).executor := by
  have same := Executor.SameTasks.wake { m.executor with clock := time } (Work.isReady m.state time)
  exact ⟨same.tasks, same.alive, h_le, same.length, same.waiting, same.resolved, same.mayHaveTask⟩

section SettleAt

variable (h : Orderly m) {time : Nat} (h_le : m.executor.clock ≤ time)

include h h_le

/-- The timers that still wait afterwards are those that were not ready. -/
theorem orderly_settleAt : Orderly (settleAt time m) where
  sound := h.sound.sameTasks (sameTasks_settleAt h_le)
  asleep p h_mem := by
    obtain ⟨h_mem, h_ready⟩ := List.mem_filter.mp h_mem
    obtain ⟨wake, h_wake, -⟩ := h.asleep p h_mem
    rw [isReady_eq h_wake, Bool.not_eq_true', decide_eq_false_iff_not] at h_ready
    exact ⟨wake, h_wake, Nat.lt_of_not_le h_ready⟩

/-- No handle sees time pass. -/
theorem view_settleAt (handle : Handle) :
    (settleAt time m).executor.view handle = m.executor.view handle := by
  have h_task := h.sound.lookup_sameTasks (sameTasks_settleAt h_le) handle
  rw [Executor.view, h_task]
  rfl

end SettleAt

/-! ### Starts -/

/-- Something was started, and has the next handle. -/
structure Started (launch : Launch (Timer α) (Except FeedError α))
    (m m' : TimerMachine α) : Prop where
  orderly : Orderly m'
  clock : m'.executor.clock = m.executor.clock
  alive : m'.executor.alive = m.executor.alive
  length : m'.executor.handles.length = m.executor.handles.length + 1
  view (handle : Handle) : m'.executor.view handle =
    if handle = m.executor.handles.length then launch.view m.executor.alive
    else m.executor.view handle

/-- One case per course: a result that is there, a task, or the end of one on the spot. -/
theorem started_start (h : Orderly m) (launch : Launch (Timer α) (Except FeedError α)) :
    Started launch m ((start launch).effect m).2 := by
  have course := (start_course launch m).2
  have h_sound := h.sound.startCourse course
  -- the course says all that is needed of the new machine
  generalize ((start launch).effect m).2 = m' at course h_sound ⊢
  cases course with
  | ready result =>
    exact ⟨⟨h_sound, h.asleep⟩, rfl, rfl, List.length_append, h.sound.view_newHandle _⟩
  | task t alive =>
    refine ⟨⟨h_sound, h.asleep⟩, rfl, rfl, List.length_append, ?_⟩
    rw [alive]
    exact h.sound.view_newTask t
  | dead t dead =>
    refine ⟨⟨h_sound, h.asleep⟩, rfl, rfl, List.length_append, ?_⟩
    rw [dead]
    exact h.sound.view_newHandle _

/-! ### One turn -/

section Turn

variable {handle : Handle} {t : Timer α}

/-- Those who still wait when one task is taken away are asleep as before. -/
theorem asleep_withdraw (h : Orderly m) : ∀ p ∈ (m.executor.withdraw handle).parked,
    ∃ wake, p.2.wakeAt = some wake ∧ m.executor.clock < wake :=
  fun p h_mem => h.asleep p (List.mem_filter.mp h_mem).1

theorem not_isReady_withdraw (h : Orderly m) (s : Unit) :
    ∀ p ∈ (m.executor.withdraw handle).parked, Work.isReady s m.executor.clock p.2 = false := by
  intro p h_mem
  obtain ⟨wake, h_wake, h_lt⟩ := asleep_withdraw h p h_mem
  rw [isReady_eq h_wake, decide_eq_false (Nat.not_le_of_lt h_lt)]

/-- The turn of a task that does not sleep any more. -/
theorem executor_turnFor_of_due (h : Orderly m) (live : m.executor.tasks.lookup handle = some t)
    (h_due : t.wakeTime m.executor.clock ≤ m.executor.clock) :
    ((turnFor handle).effect m).2.executor =
      (m.executor.withdraw handle).resolve handle t.result := by
  have h_clock : (m.executor.withdraw handle).clock = m.executor.clock := rfl
  rw [turnFor, Act.effect_bind, Act.effect_get]
  simp only [live, Act.effect_bind, effect_onExecutor, turnOf, Act.effect_get, effect_onState,
    h_clock, Timer.effect_turn, if_pos h_due, effect_settle, Executor.clock_resolve]
  -- nobody else is ready
  apply Executor.wake_of_forall
  rw [Executor.resolve_eq_modify]
  exact not_isReady_withdraw h _

/-- The turn of a task that has to sleep, or to sleep on. -/
theorem executor_turnFor_of_lt (h : Orderly m) (live : m.executor.tasks.lookup handle = some t)
    (h_lt : m.executor.clock < t.wakeTime m.executor.clock) :
    ((turnFor handle).effect m).2.executor =
      (m.executor.withdraw handle).park handle (t.begin m.executor.clock) := by
  have h_clock : (m.executor.withdraw handle).clock = m.executor.clock := rfl
  rw [turnFor, Act.effect_bind, Act.effect_get]
  simp only [live, Act.effect_bind, effect_onExecutor, turnOf, Act.effect_get, effect_onState,
    h_clock, Timer.effect_turn, if_neg (Nat.not_le_of_lt h_lt), effect_settle]
  -- neither the others nor the task itself, which was just put to sleep, is ready
  apply Executor.wake_of_forall
  intro p h_mem
  rcases List.mem_append.mp h_mem with h_mem | h_mem
  · exact not_isReady_withdraw h _ p h_mem
  · obtain rfl := List.mem_singleton.mp h_mem
    rw [isReady_eq rfl]
    exact decide_eq_false (Nat.not_le_of_lt h_lt)

/-- The task behind a handle, if there is one, had its turn. -/
structure HadTurn (handle : Handle) (m m' : TimerMachine α) : Prop where
  orderly : Orderly m'
  queue : m'.executor.queue = m.executor.queue.filter (fun p => !(p.1 == handle))
  clock : m'.executor.clock = m.executor.clock
  alive : m'.executor.alive = m.executor.alive
  length : m'.executor.handles.length = m.executor.handles.length
  view (other : Handle) : m'.executor.view other =
    if other = handle then (m.executor.view other).turned m.executor.clock m.executor.clock
    else m.executor.view other

/-- Without a task, nothing happens. -/
theorem HadTurn.of_none (h : Orderly m) (noTask : m.executor.tasks.lookup handle = none) :
    HadTurn handle m m where
  orderly := h
  queue := by
    symm
    apply List.filter_eq_self.mpr
    intro p h_mem
    -- the handle has no task in the queue either
    have h_ne : p.1 ≠ handle := by
      rintro rfl
      exact absurd (List.lookup_eq_none_iff.mp noTask p (List.mem_append_left _ h_mem)) (by simp)
    simpa using h_ne
  clock := rfl
  alive := rfl
  length := rfl
  view other := by
    split
    · next h_eq =>
      subst h_eq
      exact (HandleView.turned_of_none noTask).symm
    · rfl

/-- A task that was due is over, and its handle has the result. -/
theorem HadTurn.of_finish (h : Orderly m) (h_sound : m'.executor.Sound)
    (live : m.executor.tasks.lookup handle = some t)
    (h_due : t.wakeTime m.executor.clock ≤ m.executor.clock)
    (h_eq : m'.executor = (m.executor.withdraw handle).resolve handle t.result) :
    HadTurn handle m m' := by
  have h_view := m.executor.view_finish live t.result
  rw [Executor.resolve_eq_modify] at h_eq h_view
  refine ⟨⟨h_sound, ?_⟩, ?_, ?_, ?_, ?_, ?_⟩
  -- field by field, of the executor that is known to be left
  all_goals rw [h_eq]
  · exact asleep_withdraw h
  · rfl
  · rfl
  · rfl
  · exact List.length_modify ..
  · intro other
    rw [h_view]
    split
    · next h_other =>
      subst h_other
      exact (HandleView.turned_of_le live h_due).symm
    · rfl

/-- A task that was not due sleeps. -/
theorem HadTurn.of_park (h : Orderly m) (h_sound : m'.executor.Sound)
    (live : m.executor.tasks.lookup handle = some t)
    (h_lt : m.executor.clock < t.wakeTime m.executor.clock)
    (h_eq : m'.executor =
      (m.executor.withdraw handle).park handle (t.begin m.executor.clock)) :
    HadTurn handle m m' := by
  refine ⟨⟨h_sound, ?_⟩, ?_, ?_, ?_, ?_, ?_⟩
  all_goals rw [h_eq]
  · intro p h_mem
    rcases List.mem_append.mp h_mem with h_mem | h_mem
    · exact asleep_withdraw h p h_mem
    · obtain rfl := List.mem_singleton.mp h_mem
      exact ⟨_, rfl, h_lt⟩
  · rfl
  · rfl
  · rfl
  · rfl
  · intro other
    rw [m.executor.view_repark live]
    split
    · next h_other =>
      subst h_other
      exact (HandleView.turned_of_lt live h_lt).symm
    · rfl

/-- Whatever is behind the handle, a turn does what `HadTurn` says. -/
theorem hadTurn_turnFor (h : Orderly m) (handle : Handle) :
    HadTurn handle m ((turnFor handle).effect m).2 := by
  have h_sound := h.sound.moveCourse (turnFor_course handle m)
  cases live : m.executor.tasks.lookup handle with
  | none =>
    have h_same : ((turnFor handle).effect m).2 = m := by
      rw [turnFor, Act.effect_bind, Act.effect_get, live]
      rfl
    rw [h_same]
    exact .of_none h live
  | some t =>
    -- the task is due now or it is not, which decides how the turn ends
    rcases Nat.lt_or_ge m.executor.clock (t.wakeTime m.executor.clock) with h_lt | h_due
    · exact .of_park h h_sound live h_lt (executor_turnFor_of_lt h live h_lt)
    · exact .of_finish h h_sound live h_due (executor_turnFor_of_due h live h_due)

end Turn

/-! ### Runs -/

/-- Every task has had its turns, the first one at `start` unless it had begun, and the last one at
`time`. Nothing is left to do at that time. -/
structure Ran (start time : Nat) (m m' : TimerMachine α) : Prop where
  orderly : Orderly m'
  idle : m'.executor.queue = []
  clock : m'.executor.clock = time
  alive : m'.executor.alive = m.executor.alive
  length : m'.executor.handles.length = m.executor.handles.length
  view (handle : Handle) :
    m'.executor.view handle = (m.executor.view handle).turned start time

/-- One run after another is one run, from the first start to the last time. -/
theorem Ran.trans {start last start' time : Nat} {m'' : TimerMachine α}
    (first : Ran start last m m')
    (second : Ran start' time m' m'') (h_le : last ≤ time) : Ran start time m m'' where
  orderly := second.orderly
  idle := second.idle
  clock := second.clock
  alive := second.alive.trans first.alive
  length := second.length.trans first.length
  view handle := by
    rw [second.view, first.view, HandleView.turned_turned start' h_le]

/-- Where the queue is empty, turns would do nothing. -/
theorem Ran.refl (h : Orderly m) (h_queue : m.executor.queue = []) :
    Ran m.executor.clock m.executor.clock m m := by
  refine ⟨h, h_queue, rfl, rfl, rfl, fun handle => ?_⟩
  cases live : (m.executor.view handle).task with
  | none => exact (HandleView.turned_of_none live).symm
  | some t =>
    -- the task is among those that wait, so it has begun to sleep and is not due
    have h_mem := h.sound.lookup_eq_some.mp live
    rw [Executor.tasks, h_queue, List.nil_append] at h_mem
    obtain ⟨wake, h_wake, h_lt⟩ := h.asleep _ h_mem
    have h_time : t.wakeTime m.executor.clock = wake := by rw [Timer.wakeTime, h_wake]; rfl
    have h_begin : t.begin m.executor.clock = t := by rw [Timer.begin, h_time, ← h_wake]
    rw [HandleView.turned_of_lt live (h_time.symm ▸ h_lt), h_begin, ← live]

/-- With turns enough, every timer in the queue has one, as the queue gets shorter with each. -/
theorem ran_turns (h : Orderly m) (fuel : Nat) (h_fuel : m.executor.queue.length ≤ fuel) :
    Ran m.executor.clock m.executor.clock m ((turns fuel).effect m).2 := by
  induction fuel generalizing m with
  | zero => exact .refl h (List.eq_nil_of_length_eq_zero (Nat.le_zero.mp h_fuel))
  | succ fuel ih =>
    rw [turns, Act.effect_bind]
    cases h_queue : m.executor.queue with
    | nil =>
      rw [turn, Act.effect_bind, Act.effect_get, h_queue]
      exact .refl h h_queue
    | cons p rest =>
      -- the head of the queue has its turn, and the rest goes on with the fuel that is left
      rw [effect_turn_of_queue h.sound h_queue]
      have hadTurn := hadTurn_turnFor h p.1
      have h_rest : ((turnFor p.1).effect m).2.executor.queue.length ≤ fuel := by
        rw [hadTurn.queue, h_queue, List.filter_cons_of_neg (by simp)]
        rw [h_queue, List.length_cons] at h_fuel
        exact Nat.le_trans (List.length_filter_le ..) (Nat.le_of_succ_le_succ h_fuel)
      have ran := ih hadTurn.orderly h_rest
      rw [hadTurn.clock] at ran
      refine ⟨ran.orderly, ran.idle, ran.clock, ran.alive.trans hadTurn.alive,
        ran.length.trans hadTurn.length, fun handle => ?_⟩
      -- a task that had its turn is not changed by another one at the same time
      refine (ran.view handle).trans ?_
      rw [hadTurn.view]
      split
      · exact HandleView.turned_turned _ (Nat.le_refl _) _
      · rfl

/-- The fuel of a run is enough for every task in the queue. -/
theorem ran_runAll (h : Orderly m) :
    Ran m.executor.clock m.executor.clock m (runAll.effect m).2 := by
  apply ran_turns h
  -- the queue is not longer than the number of turns
  have h_le : m.executor.queue.length ≤
      m.executor.queue.length + m.executor.parked.length + 1 := by omega
  exact Nat.le_trans h_le (Nat.le_mul_self _)

/-- The clock is moved, and then everybody has a turn. -/
theorem ran_moveTo (h : Orderly m) (time : Nat) :
    Ran (max m.executor.clock time) (max m.executor.clock time) m ((moveTo time).effect m).2 := by
  have h_le : m.executor.clock ≤ max m.executor.clock time := Nat.le_max_left ..
  have ran := ran_runAll (orderly_settleAt h h_le)
  refine ⟨ran.orderly, ran.idle, ran.clock, ran.alive, ran.length, fun handle => ?_⟩
  rw [← view_settleAt h h_le handle]
  exact ran.view handle

/-- However many deadlines there are on the way. -/
theorem ran_moveThrough {target start : Nat} {m₀ : TimerMachine α}
    (ran : Ran start m.executor.clock m₀ m) (h_le : m.executor.clock ≤ target) (fuel : Nat) :
    ∃ time ≤ target, Ran start time m₀ ((moveThrough target fuel).effect m).2 := by
  -- the run so far is what the induction carries, from the machine at its start
  induction fuel generalizing m with
  | zero => exact ⟨_, h_le, ran⟩
  | succ fuel ih =>
    rw [moveThrough, Act.effect_bind, Act.effect_get]
    cases h_deadline : m.nextDeadline? target with
    | none => exact ⟨_, h_le, ran⟩
    | some deadline =>
      have h_deadline_le : deadline ≤ target := by
        have h_mem := (List.min?_eq_some_iff.mp h_deadline).1
        simpa using (List.mem_filter.mp h_mem).2
      -- the clock is moved to the next deadline, which is not beyond the target
      have moved := ran_moveTo ran.orderly deadline
      have ran' := ran.trans moved (Nat.le_max_left ..)
      rw [← moved.clock] at ran'
      apply ih ran'
      rw [moved.clock]
      exact Nat.max_le.mpr ⟨h_le, h_deadline_le⟩

/-- An advance is a turn for everybody before it, and one at its end. -/
theorem ran_advance (h : Orderly m) (milliseconds : Nat) :
    Ran m.executor.clock (m.executor.clock + milliseconds) m
      ((advance milliseconds).effect m).2 := by
  -- three runs one after another: at the start, through the deadlines, and at the target
  rw [advance, Act.effect_bind, Act.effect_bind, Act.effect_get]
  have first := ran_runAll h
  generalize (runAll.effect m).2 = m₁ at first ⊢
  rw [← first.clock]
  have first' := first
  rw [← first.clock] at first'
  obtain ⟨time, h_le, through⟩ := ran_moveThrough first' (Nat.le_add_right _ milliseconds)
    (m₁.executor.parked.length + 1)
  rw [Act.effect_bind]
  dsimp only
  generalize ((moveThrough (m₁.executor.clock + milliseconds)
    (m₁.executor.parked.length + 1)).effect m₁).2 = m₂ at through ⊢
  have last := ran_moveTo through.orderly (m₁.executor.clock + milliseconds)
  rw [through.clock, Nat.max_eq_right h_le] at last
  exact through.trans last h_le

/-! ### The end of all tasks -/

/-- When tasks end unfinished, each of their handles gets the cancelled result, unless it has
another one or was dropped. -/
theorem handles_endTasks (tasks : List (Handle × Timer α)) (m : TimerMachine α) (handle : Handle) :
    ((endTasks tasks).effect m).2.executor.handles[handle]? =
      if handle ∈ tasks.map (·.1) then
        m.executor.handles[handle]?.map (HandleState.resolve (.error .cancelled))
      else m.executor.handles[handle]? := by
  induction tasks generalizing m with
  | nil => rfl
  | cons p rest ih =>
    simp only [endTasks, Act.effect_bind, effect_onState, effect_onExecutor]
    rw [ih, Executor.resolve_eq_modify, List.getElem?_modify, List.map_cons]
    by_cases h_eq : p.1 = handle
    · -- ended twice, it would still have its first result
      subst h_eq
      rw [if_pos (List.mem_cons_self ..)]
      split
      · cases m.executor.handles[p.1]? with
        | none => rfl
        | some state => simp [Work.cancelled]
      · simp [Work.cancelled]
    · have h_mem : handle ∈ p.1 :: rest.map (·.1) ↔ handle ∈ rest.map (·.1) := by
        rw [List.mem_cons, or_iff_right (Ne.symm h_eq)]
      simp only [h_mem, h_eq, if_false, Option.map_eq_map, Option.map_id']

/-- All tasks are over, with the cancelled result. -/
structure ShutDown (m m' : TimerMachine α) : Prop where
  orderly : Orderly m'
  clock : m'.executor.clock = m.executor.clock
  alive : m'.executor.alive = false
  length : m'.executor.handles.length = m.executor.handles.length
  view (handle : Handle) :
    m'.executor.view handle = (m.executor.view handle).ended (.error .cancelled)

/-- A shutdown does to every handle what the end of its task does. -/
theorem shutDown_shutdown (h : Orderly m) : ShutDown m (shutdown.effect m).2 := by
  have ended := ended_shutdown m
  have h_sound : (shutdown.effect m).2.executor.Sound := h.sound.moveCourse (.ended ended)
  refine ⟨⟨h_sound, ?_⟩, ended.clock, ended.alive, ended.length, ?_⟩
  · intro p h_mem
    have h_task := List.mem_append_right (shutdown.effect m).2.executor.queue h_mem
    rw [← Executor.tasks, ended.tasks] at h_task
    cases h_task
  · intro handle
    have h_handles : (shutdown.effect m).2.executor.handles[handle]? =
        if handle ∈ (m.executor.parked ++ m.executor.queue).map (·.1) then
          m.executor.handles[handle]?.map (HandleState.resolve (.error .cancelled))
        else m.executor.handles[handle]? :=
      handles_endTasks (m.executor.parked ++ m.executor.queue)
        { m with executor := { m.executor with alive := false, queue := [], parked := [] } } handle
    -- those that are ended are all tasks, only listed in another order
    have h_mem : handle ∈ (m.executor.parked ++ m.executor.queue).map (·.1) ↔
        handle ∈ m.executor.tasks.map (·.1) := by
      rw [Executor.tasks, List.map_append, List.map_append, List.mem_append,
        List.mem_append, or_comm]
    rw [Executor.view, ended.tasks, h_handles]
    -- a handle is resolved exactly if there was a task behind it
    cases live : m.executor.tasks.lookup handle with
    | none =>
      have h_not : handle ∉ m.executor.tasks.map (·.1) := by
        intro h_task
        obtain ⟨p, h_p, rfl⟩ := List.mem_map.mp h_task
        exact absurd (List.lookup_eq_none_iff.mp live p h_p) (by simp)
      rw [if_neg (mt h_mem.mp h_not), HandleView.ended_of_none live, Executor.view, live]
      rfl
    | some t =>
      have h_task : handle ∈ m.executor.tasks.map (·.1) :=
        List.mem_map_of_mem (h.sound.lookup_eq_some.mp live)
      rw [if_pos (h_mem.mpr h_task), HandleView.ended_of_some live]
      rfl

end TimerMachine

end OperationFeed
